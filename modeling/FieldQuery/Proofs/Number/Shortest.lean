import FieldQuery.Number.Shortest
import FieldQuery.Proofs.Number.Nearest
import FieldQuery.Proofs.Text.Digits

/-!
# The shortest decimal reads back

The shortest decimal of a double lies among the numbers that are rounded to it, so its nearest double
is the double it was made from. It always exists: of the multiples of a power of ten that is small
enough for seventeen digits, one of the two next to the double is near enough.
-/

namespace FieldQuery.Number

open FieldQuery.Text Magnitude

/-! ## The numbers that are rounded to a magnitude -/

private theorem tenTo_pos (n : ℕ) : 0 < tenTo n :=
  Nat.pow_pos (by decide)

private theorem cast_tenTo (n : ℕ) : (tenTo n : ℚ) = 10 ^ n :=
  Nat.cast_pow 10 n

private theorem cast_tenTo_div (p : ℤ) : (tenTo p.toNat : ℚ) / tenTo (-p).toNat = 10 ^ p := by
  rw [cast_tenTo, cast_tenTo, ← zpow_natCast, ← zpow_natCast, ← zpow_sub₀ (by norm_num)]
  congr 1
  omega

/-- Half the distance to the next lower double, in units of the magnitude: below a power of two the
doubles lie twice as close. -/
def Magnitude.lowerHalf (x : Magnitude) : ℚ :=
  if x.significand = 2 ^ 52 ∧ leastExponent < x.exponent then 1 / 4 else 1 / 2

/-- The numbers that are rounded to a magnitude lie between the middles to its neighbours, which are
among them if the significand is even. -/
structure Magnitude.Covers (x : Magnitude) (r : ℚ) : Prop where
  lower : (x.significand - x.lowerHalf) * 2 ^ x.exponent ≤ r
  upper : r ≤ (x.significand + 1 / 2) * 2 ^ x.exponent
  even : r = (x.significand - x.lowerHalf) * 2 ^ x.exponent ∨
    r = (x.significand + 1 / 2) * 2 ^ x.exponent → x.significand % 2 = 0

variable {x : Magnitude} {c : ℕ} {p : ℤ} {r : ℚ}

/-- A comparison of multiples of powers of two and of ten, brought to whole numbers. -/
theorem scaled_le_iff (a c : ℕ) (u p : ℤ) :
    (a * twoTo u.toNat * tenTo (-p).toNat ≤ c * tenTo p.toNat * twoTo (-u).toNat ↔
      (a * 2 ^ u : ℚ) ≤ c * 10 ^ p) ∧
    (c * tenTo p.toNat * twoTo (-u).toNat ≤ a * twoTo u.toNat * tenTo (-p).toNat ↔
      (c * 10 ^ p : ℚ) ≤ a * 2 ^ u) := by
  -- powers of negative exponents are divided by, so both sides are multiplied out
  have htwo : (0 : ℚ) < twoTo (-u).toNat := by exact_mod_cast twoTo_pos _
  have hten : (0 : ℚ) < tenTo (-p).toNat := by exact_mod_cast tenTo_pos _
  rw [← cast_twoTo_div, ← cast_tenTo_div, ← mul_div_assoc, ← mul_div_assoc,
    div_le_div_iff₀ htwo hten, div_le_div_iff₀ hten htwo]
  constructor <;> exact_mod_cast Iff.rfl

private theorem quarters_mul (q : ℕ) (e : ℤ) : (q * 2 ^ (e - 2) : ℚ) = q / 4 * 2 ^ e := by
  rw [zpow_sub₀ two_ne_zero]
  ring

/-- The lower end in quarters of the unit. -/
theorem low_quarters (h : 0 < x.significand) :
    ((if x.significand = twoTo 52 ∧ leastExponent < x.exponent then 4 * x.significand - 1
      else 4 * x.significand - 2 : ℕ) / 4 : ℚ) = x.significand - x.lowerHalf := by
  have htwo : twoTo 52 = 2 ^ 52 := rfl
  unfold Magnitude.lowerHalf
  rw [htwo]
  -- at a power of two the lower neighbour is half as far
  split
  · rw [Nat.cast_sub (by omega)]
    push_cast
    ring
  · rw [Nat.cast_sub (by omega)]
    push_cast
    ring

/-- The comparison of whole numbers finds the numbers that the magnitude covers. -/
theorem rounds_iff (h : 0 < x.significand) : x.rounds c p = true ↔ x.Covers (c * 10 ^ p) := by
  have hhigh : ((4 * x.significand + 2 : ℕ) * 2 ^ (x.exponent - 2) : ℚ) =
      (x.significand + 1 / 2) * 2 ^ x.exponent := by
    rw [quarters_mul]
    push_cast
    ring
  obtain ⟨low, hlow⟩ : ∃ low : ℕ, (if x.significand = twoTo 52 ∧ leastExponent < x.exponent then
      4 * x.significand - 1 else 4 * x.significand - 2) = low := ⟨_, rfl⟩
  have hle_low := scaled_le_iff low c (x.exponent - 2) p
  have hle_high := scaled_le_iff (4 * x.significand + 2) c (x.exponent - 2) p
  rw [quarters_mul, ← hlow, low_quarters h] at hle_low
  rw [hhigh] at hle_high
  simp only [rounds]
  rw [hlow] at hle_low ⊢
  -- The ends belong to the interval of an even significand only.
  split
  · next heven =>
    rw [Bool.and_eq_true, decide_eq_true_eq, decide_eq_true_eq, hle_low.1, hle_high.2]
    exact ⟨fun h => ⟨h.1, h.2, fun _ => heven⟩, fun h => ⟨h.lower, h.upper⟩⟩
  · next hodd =>
    rw [Bool.and_eq_true, decide_eq_true_eq, decide_eq_true_eq, ← not_le, hle_low.2, ← not_le,
      hle_high.1, not_le, not_le]
    refine ⟨fun h => ⟨h.1.le, h.2.le, ?_⟩, fun h => ⟨?_, ?_⟩⟩
    · rintro (heq | heq)
      · exact absurd heq h.1.ne'
      · exact absurd heq h.2.ne
    · exact lt_of_le_of_ne h.lower fun heq => hodd (h.even (Or.inl heq.symm))
    · exact lt_of_le_of_ne h.upper fun heq => hodd (h.even (Or.inr heq))

private theorem Magnitude.lowerHalf_le (x : Magnitude) : x.lowerHalf ≤ 1 / 2 := by
  unfold Magnitude.lowerHalf
  split <;> norm_num

namespace Magnitude.Covers

/-- In the unit of the magnitude, the number is less than half a unit away. -/
theorem isNearest_of_unit (hr : x.Covers r) (hx : x.Canonical)
    (hunit : 2 ^ 52 * 2 ^ x.exponent ≤ r ∨ x.exponent = leastExponent) : IsNearest r x := by
  have hpow : (0 : ℚ) < 2 ^ x.exponent := by positivity
  have hlt : (x.significand : ℚ) + 1 ≤ 2 ^ 53 := by exact_mod_cast hx.significand_lt
  have hhalf := x.lowerHalf_le
  have hcarried : x = carried x.significand x.exponent := by
    rw [carried, if_neg (ne_of_lt hx.significand_lt)]
  refine ⟨x.significand, x.exponent, ⟨?_, hunit, hx.least_le⟩, ⟨?_, ?_, ?_⟩, hcarried⟩
  · refine hr.upper.trans_lt (mul_lt_mul_of_pos_right ?_ hpow)
    linarith
  · exact (div_le_iff₀ hpow).mpr hr.upper
  · refine (le_div_iff₀ hpow).mpr (le_trans ?_ hr.lower)
    exact mul_le_mul_of_nonneg_right (by linarith) hpow.le
  · rintro (h | h)
    · exact hr.even (Or.inr ((div_eq_iff hpow.ne').mp h))
    · have hmiddle := (div_eq_iff hpow.ne').mp h
      -- The lower end is the middle unless the next lower double is closer.
      have hle := le_of_mul_le_mul_right (hr.lower.trans_eq hmiddle) hpow
      refine hr.even (Or.inl ?_)
      rw [hmiddle, show x.lowerHalf = 1 / 2 by linarith]

/-- Below the unit of the magnitude, the magnitude is a power of two and the number is rounded up to
it from the next lower unit. -/
theorem isNearest_of_lt (hr : x.Covers r) (hx : x.Canonical) (hbelow : r < 2 ^ 52 * 2 ^ x.exponent)
    (hleast : x.exponent ≠ leastExponent) : IsNearest r x := by
  have hpow : (0 : ℚ) < 2 ^ x.exponent := by positivity
  obtain ⟨hlower, hupper, -⟩ := hr
  have hhalf := x.lowerHalf_le
  obtain ⟨m, e⟩ := x
  simp only at *
  have hleast_lt : leastExponent < e := lt_of_le_of_ne hx.least_le (Ne.symm hleast)
  have hleading : 2 ^ 52 ≤ m := hx.leading.resolve_right hleast
  have hsignificand : m = 2 ^ 52 := by
    have hle : (m : ℚ) - 1 / 2 < 2 ^ 52 := by
      refine lt_of_mul_lt_mul_right (lt_of_le_of_lt (le_trans ?_ hlower) hbelow) hpow.le
      exact mul_le_mul_of_nonneg_right (by linarith) hpow.le
    have hlt : (m : ℚ) < (2 ^ 52 + 1 : ℕ) := by
      push_cast
      linarith
    have hlt' : m < 2 ^ 52 + 1 := by exact_mod_cast hlt
    omega
  subst hsignificand
  have hquarter : Magnitude.lowerHalf ⟨2 ^ 52, e⟩ = 1 / 4 := by
    simp [Magnitude.lowerHalf, hleast_lt]
  have hunder : (2 : ℚ) ^ (e - 1) = 2 ^ e / 2 := zpow_sub_one₀ two_ne_zero e
  rw [hquarter] at hlower
  push_cast at hlower
  -- A quarter of the unit of the magnitude is half of the next lower one.
  refine ⟨2 ^ 53, e - 1, ⟨?_, Or.inl ?_, by omega⟩, ⟨?_, ?_, fun _ => by norm_num⟩, ?_⟩
  · rw [hunder]
    linarith
  · rw [hunder]
    linarith
  · rw [hunder, div_le_iff₀ (by positivity)]
    push_cast
    linarith
  · rw [hunder, le_div_iff₀ (by positivity)]
    push_cast
    linarith
  · simp [carried]

/-- A number that a magnitude covers is rounded to it. -/
theorem isNearest (hr : x.Covers r) (hx : x.Canonical) : IsNearest r x := by
  by_cases hunit : 2 ^ 52 * 2 ^ x.exponent ≤ r ∨ x.exponent = leastExponent
  · exact hr.isNearest_of_unit hx hunit
  · obtain ⟨hbelow, hleast⟩ := not_or.mp hunit
    exact hr.isNearest_of_lt hx (not_le.mp hbelow) hleast

end Magnitude.Covers

/-! ## The leading digit -/

private theorem cast_div_bounds (a : ℕ) {b : ℕ} (hb : 0 < b) :
    ((a / b : ℕ) : ℚ) ≤ a / b ∧ (a / b : ℚ) < (a / b : ℕ) + 1 := by
  refine ⟨Nat.cast_div_le, ?_⟩
  rw [div_lt_iff₀ (by exact_mod_cast hb)]
  exact_mod_cast Nat.lt_mul_of_div_lt (Nat.lt_succ_self _) hb

/-- The leading digit of a magnitude stands at its decimal exponent. -/
theorem decimalExponent_spec (hx : x.Canonical) (h : 0 < x.significand) :
    10 ^ x.decimalExponent ≤ x.value ∧ x.value < 10 ^ (x.decimalExponent + 1) := by
  have hten : (0 : ℚ) < 10 ^ (330 : ℤ) := by positivity
  have hscaled : ((x.numerator * tenTo 330 : ℕ) / x.denominator : ℚ) = x.value * 10 ^ (330 : ℤ) := by
    rw [Nat.cast_mul, mul_div_right_comm, numerator_div_denominator, cast_tenTo]
    rfl
  obtain ⟨hle, hlt⟩ := cast_div_bounds (x.numerator * tenTo 330) x.denominator_pos
  rw [hscaled] at hle hlt
  -- Even the least double has a digit before the point then.
  have hone : 1 ≤ x.value * 10 ^ (330 : ℤ) := by
    have hleast : (1 : ℚ) ≤ 2 ^ leastExponent * 10 ^ (330 : ℤ) := by
      have hpow : 2 ^ 1074 ≤ 10 ^ 330 := by decide +kernel
      rw [leastExponent, zpow_neg, ← div_eq_inv_mul, one_le_div₀ (by positivity)]
      exact_mod_cast hpow
    refine hleast.trans (mul_le_mul_of_nonneg_right ?_ hten.le)
    calc (2 : ℚ) ^ leastExponent ≤ 2 ^ x.exponent := zpow_le_zpow_right₀ one_le_two hx.least_le
      _ ≤ x.value := le_mul_of_one_le_left (by positivity) (by exact_mod_cast h)
  obtain ⟨n, hn⟩ : ∃ n, n = x.numerator * tenTo 330 / x.denominator := ⟨_, rfl⟩
  rw [← hn] at hle hlt
  have hpos : 0 < n := by
    have hpos : (0 : ℚ) < n := by linarith
    exact_mod_cast hpos
  obtain ⟨hlow, hhigh⟩ := pow_length_natDigits hpos
  have hlength : 0 < (natDigits n).length := Nat.length_toDigits_pos
  have hexponent : x.decimalExponent = (natDigits n).length - 331 := by rw [hn]; rfl
  rw [hexponent]
  refine ⟨le_of_mul_le_mul_right ?_ hten, lt_of_mul_lt_mul_right ?_ hten.le⟩
  · refine le_trans ?_ hle
    rw [← zpow_add₀ (by norm_num), show ((natDigits n).length - 331 + 330 : ℤ) =
      ((natDigits n).length - 1 : ℕ) by omega, zpow_natCast]
    exact_mod_cast hlow
  · refine hlt.trans_le ?_
    rw [← zpow_add₀ (by norm_num), show ((natDigits n).length - 331 + 1 + 330 : ℤ) =
      (natDigits n).length by omega, zpow_natCast]
    exact_mod_cast hhigh

/-! ## Neighbours on a decimal grid -/

/-- The neighbours of a magnitude among the multiples of a power of ten. -/
theorem gridFloor_spec (x : Magnitude) (p : ℤ) :
    let c := x.numerator * tenTo (-p).toNat / (x.denominator * tenTo p.toNat)
    c * 10 ^ p ≤ x.value ∧ x.value < (c + 1 : ℕ) * 10 ^ p := by
  intro c
  have hpow : (0 : ℚ) < 10 ^ p := by positivity
  -- one of the two powers of ten is 1, according to the sign of `p`
  have hscaled : ((x.numerator * tenTo (-p).toNat : ℕ) /
      (x.denominator * tenTo p.toNat : ℕ) : ℚ) = x.value / 10 ^ p := by
    rw [← cast_tenTo_div, ← numerator_div_denominator]
    push_cast
    field_simp
  obtain ⟨hle, hlt⟩ := cast_div_bounds (x.numerator * tenTo (-p).toNat)
    (Nat.mul_pos x.denominator_pos (tenTo_pos p.toNat))
  rw [hscaled] at hle hlt
  refine ⟨(le_div_iff₀ hpow).mp hle, ?_⟩
  rw [Nat.cast_add_one]
  exact (div_lt_iff₀ hpow).mp hlt

/-- A number is covered if it is near to a magnitude, measured by its seventeenth digit. -/
theorem covers_of_near {g : ℚ} (hx : x.Canonical) (hpos : 0 < g) (hg : g * 10 ^ 16 ≤ x.value)
    (hle : r ≤ x.value + g / 2) (hge : x.value - g / 2 ≤ r) : x.Covers r := by
  have hunit : (0 : ℚ) < 2 ^ x.exponent := by positivity
  -- the unit in the last place is far below `g`, so its half is too
  have hdigits : x.value ≤ 2 ^ 53 * 2 ^ x.exponent :=
    mul_le_mul_of_nonneg_right (by exact_mod_cast hx.significand_lt.le) hunit.le
  have hupper : r < (x.significand + 1 / 2) * 2 ^ x.exponent := by
    rw [add_mul]
    change r < x.value + _
    linarith
  have hlower : (x.significand - x.lowerHalf) * 2 ^ x.exponent < r := by
    rw [sub_mul]
    change x.value - _ < r
    unfold Magnitude.lowerHalf
    split
    · -- at a power of two the step downwards is half of the one upwards
      next hboundary =>
      have hvalue : x.value = 2 ^ 52 * 2 ^ x.exponent := by
        rw [value, hboundary.1]
        norm_num
      linarith
    · linarith
  exact ⟨hlower.le, hupper.le, fun h => by rcases h with h | h <;> linarith⟩

private theorem onGrid?_spec {tie : Tie} (h : x.onGrid? tie p = some c) :
    x.rounds c p = true ∧
      c ≤ x.numerator * tenTo (-p).toNat / (x.denominator * tenTo p.toNat) + 1 := by
  simp only [onGrid?] at h
  generalize hn : x.numerator * tenTo (-p).toNat = n at h ⊢
  have hd : 0 < x.denominator * tenTo p.toNat := Nat.mul_pos x.denominator_pos (tenTo_pos _)
  generalize x.denominator * tenTo p.toNat = d at h hd ⊢
  have hhalf := roundHalf_eq_or tie n hd
  -- both ends, the lower one or the upper one of the grid may round back to the number
  split at h
  · next hboth =>
    rw [Bool.and_eq_true] at hboth
    cases h
    rcases hhalf with heq | heq <;> rw [heq]
    · exact ⟨hboth.1, Nat.le_succ _⟩
    · exact ⟨hboth.2, le_rfl⟩
  · split at h
    · next hlow =>
      cases h
      exact ⟨hlow, Nat.le_succ _⟩
    · split at h
      · next hhigh =>
        cases h
        exact ⟨hhigh, le_rfl⟩
      · cases h

/-- On a grid that is fine enough for seventeen digits the nearer neighbour is covered. -/
theorem onGrid?_ne_none {tie : Tie} (hx : x.Canonical) (h : 0 < x.significand)
    (hp : (10 ^ p * 10 ^ 16 : ℚ) ≤ x.value) : x.onGrid? tie p ≠ none := by
  obtain ⟨hfloor, hceil⟩ := gridFloor_spec x p
  have hpow : (0 : ℚ) < 10 ^ p := by positivity
  simp only [onGrid?]
  generalize x.numerator * tenTo (-p).toNat / (x.denominator * tenTo p.toNat) = c at *
  rw [Nat.cast_add_one, add_one_mul] at hceil
  -- the end of the grid next to the number is within half a step of it
  have hnear : x.rounds c p = true ∨ x.rounds (c + 1) p = true := by
    rw [rounds_iff h, rounds_iff h, Nat.cast_add_one, add_one_mul]
    rcases le_total x.value (c * 10 ^ p + 10 ^ p / 2) with hlow | hhigh
    · exact Or.inl (covers_of_near hx hpow hp (by linarith) (by linarith))
    · exact Or.inr (covers_of_near hx hpow hp (by linarith) (by linarith))
  rcases hnear with hnear | hnear
  · by_cases hnext : x.rounds (c + 1) p = true <;> simp [hnear, hnext]
  · by_cases hthis : x.rounds c p = true <;> simp [hnear, hthis]

/-! ## The shortest decimal -/

/-- A positive magnitude is written with a coefficient of at most seventeen digits that it covers. -/
theorem exists_shortest_eq (tie : Tie) (hx : x.Canonical) (h : 0 < x.significand) :
    ∃ c p, x.shortest tie = normalized c p ∧ x.Covers (c * 10 ^ p) ∧ c ≤ 10 ^ 17 := by
  obtain ⟨hlow, hhigh⟩ := decimalExponent_spec hx h
  have hzero : x.isZero = false := by simp [isZero, h.ne']
  unfold shortest
  simp only [hzero, Bool.false_eq_true, if_false]
  generalize x.decimalExponent = e at *
  split
  · next c p hfound =>
    obtain ⟨k, hk, hsome⟩ := List.exists_of_findSome?_eq_some hfound
    obtain ⟨c', hc', heq⟩ := Option.map_eq_some_iff.mp hsome
    obtain ⟨rfl, rfl⟩ := Prod.mk.inj heq
    obtain ⟨hrounds, hle⟩ := onGrid?_spec hc'
    refine ⟨c', _, rfl, (rounds_iff h).mp hrounds, hle.trans ?_⟩
    -- The magnitude is below the next power of ten, and so is the neighbour below it.
    have hfloor := (gridFloor_spec x (e - k)).1
    generalize x.numerator * tenTo (-(e - k)).toNat / (x.denominator * tenTo (e - k).toNat) = q at *
    have hlt : (q : ℚ) * 10 ^ (e - k) < 10 ^ (k + 1) * 10 ^ (e - k) := by
      refine hfloor.trans_lt (hhigh.trans_eq ?_)
      rw [← zpow_natCast, ← zpow_add₀ (by norm_num)]
      congr 1
      push_cast
      omega
    have hq : q < 10 ^ (k + 1) := by exact_mod_cast lt_of_mul_lt_mul_right hlt (by positivity)
    exact hq.trans_le (Nat.pow_le_pow_right (Nat.succ_pos 9) (List.mem_range.mp hk))
  · next hfound =>
    -- The grid of seventeen digits is fine enough.
    have hnone := List.findSome?_eq_none_iff.mp hfound 16 (by decide)
    refine absurd (Option.map_eq_none_iff.mp hnone) (onGrid?_ne_none hx h ?_)
    refine le_trans (le_of_eq ?_) hlow
    rw [← zpow_natCast, ← zpow_add₀ (by norm_num)]
    congr 1
    omega

/-- Zero is written with one digit. -/
theorem shortest_of_significand_eq_zero {tie : Tie} (h : x.significand = 0) :
    x.shortest tie = ⟨['0'], 0⟩ := by
  simp [shortest, isZero, h]

/-- The shortest decimal of a positive magnitude has at most seventeen digits, and the magnitude is
nearest to it. -/
theorem shortest_spec_of_pos (tie : Tie) (hx : x.Canonical) (hpos : 0 < x.significand) :
    ∃ (n : ℕ) (q : ℤ), 0 < n ∧ x.shortest tie = ⟨natDigits n, q + (natDigits n).length - 1⟩ ∧
      (natDigits n).length ≤ 17 ∧ IsNearest (n * 10 ^ q) x := by
  obtain ⟨c, p, hshortest, hcovers, hle⟩ := exists_shortest_eq tie hx hpos
  have hc : 0 < c := by
    by_contra hzero
    have hone : (1 : ℚ) ≤ x.significand := by exact_mod_cast hpos
    have hlow : (0 : ℚ) < (x.significand - x.lowerHalf) * 2 ^ x.exponent :=
      mul_pos (by linarith [x.lowerHalf_le]) (by positivity)
    have hlower := hcovers.lower
    rw [Nat.eq_zero_of_not_pos hzero, Nat.cast_zero, zero_mul] at hlower
    linarith
  obtain ⟨n, z, hn, hend, rfl, hdrop, hlength⟩ := exists_dropWhile_natDigits hc
  refine ⟨n, p + z, hn, ?_, ?_, ?_⟩
  · rw [hshortest]
    simp only [normalized, hdrop, hlength, Scientific.mk.injEq, true_and]
    push_cast
    ring
  · -- A power of ten has one digit only.
    have hle' : n ≤ 10 ^ 17 := (Nat.le_mul_of_pos_right n (by positivity)).trans hle
    refine (Nat.length_toDigits_le_iff (by decide) (by decide)).mpr (lt_of_le_of_ne hle' ?_)
    rintro rfl
    exact hend (by norm_num)
  · have hvalue : (n * 10 ^ (p + z) : ℚ) = (n * 10 ^ z : ℕ) * 10 ^ p := by
      rw [zpow_add₀ (by norm_num), zpow_natCast]
      push_cast
      ring
    rw [hvalue]
    exact hcovers.isNearest hx

/-- The shortest decimal of any magnitude reads back as this magnitude. -/
theorem shortest_spec (tie : Tie) (hx : x.Canonical) :
    ∃ (n : ℕ) (q : ℤ), x.shortest tie = ⟨natDigits n, q + (natDigits n).length - 1⟩ ∧
      (natDigits n).length ≤ 17 ∧ IsNearest (n * 10 ^ q) x := by
  rcases Nat.eq_zero_or_pos x.significand with hzero | hpos
  · -- zero has no least place; its shortest text is fixed
    have hleast : x.exponent = leastExponent := hx.leading.resolve_left (by omega)
    have heq : x = ⟨0, leastExponent⟩ := by rw [← hzero, ← hleast]
    refine ⟨0, 0, shortest_of_significand_eq_zero hzero, by decide, ?_⟩
    rw [heq]
    simpa using isNearest_zero
  · obtain ⟨n, q, -, hspec⟩ := shortest_spec_of_pos tie hx hpos
    exact ⟨n, q, hspec⟩

end FieldQuery.Number
