import FieldQuery.Proofs.Number.Reading
import FieldQuery.Proofs.Number.Shortest

/-!
# Shortest decimals as texts

The exponent of a shortest decimal tells between which powers of ten the double lies, for those powers
that are not above the double nearest to them. From `1e-5` up to `1e16` the text of a shortest decimal
is a numeral for the same number.
-/

namespace FieldQuery.Number

open FieldQuery.Text

/-! ## Exponents -/

/-- The leading digit of a number with an exponent. -/
theorem scientific_bounds {n : ℕ} (hn : 0 < n) (q : ℤ) :
    10 ^ (q + (natDigits n).length - 1) ≤ (n * 10 ^ q : ℚ) ∧
      (n * 10 ^ q : ℚ) < 10 ^ (q + (natDigits n).length) := by
  obtain ⟨hlow, hhigh⟩ := pow_length_natDigits hn
  have hlength : 0 < (natDigits n).length := Nat.length_toDigits_pos
  constructor
  · -- a number of `k` digits is at least the power with `k - 1` zeros
    rw [show q + ((natDigits n).length : ℤ) - 1 = ((natDigits n).length - 1 : ℕ) + q by omega,
      zpow_add₀ (by norm_num), zpow_natCast]
    exact mul_le_mul_of_nonneg_right (by exact_mod_cast hlow) (by positivity)
  · rw [add_comm, zpow_add₀ (by norm_num), zpow_natCast]
    exact mul_lt_mul_of_pos_right (by exact_mod_cast hhigh) (by positivity)

section Exponents

variable {tie : Tie} {x : Magnitude}

/-- A double is at least a power of ten if its exponent is, and the other way round if the nearest
double of this power is not below it. -/
theorem le_exponent_iff (hx : x.Canonical) (hpos : 0 < x.significand) {a b : ℕ} {k : ℤ} (hb : 0 < b)
    (hpower : 10 ^ k = (a / b : ℚ)) (hle : 10 ^ k ≤ (Magnitude.nearest a b).value)
    (hk : ((Magnitude.nearest a b).shortest tie).exponent = k) :
    k ≤ (x.shortest tie).exponent ↔ 10 ^ k ≤ x.value := by
  have ht := isNearest_nearest a hb
  rw [← hpower] at ht
  obtain ⟨n, q, hn, hshortest, -, hnearest⟩ := shortest_spec_of_pos tie hx hpos
  obtain ⟨hlow, hhigh⟩ := scientific_bounds hn q
  have hexponent : (x.shortest tie).exponent = q + (natDigits n).length - 1 := by rw [hshortest]
  constructor
  · intro h
    have hpow : (10 ^ k : ℚ) ≤ 10 ^ (q + (natDigits n).length - 1) :=
      zpow_le_zpow_right₀ (by norm_num) (by omega)
    exact hle.trans (ht.mono hnearest (hpow.trans hlow))
  · intro h
    by_contra hlt
    have hpow : (10 ^ (q + (natDigits n).length) : ℚ) ≤ 10 ^ k :=
      zpow_le_zpow_right₀ (by norm_num) (by omega)
    -- The double is the one nearest to the power, whose exponent is known.
    have hvalue : x.value = (Magnitude.nearest a b).value :=
      le_antisymm (hnearest.mono ht (hhigh.le.trans hpow)) (ht.mono hx.isNearest h)
    have heq : x = Magnitude.nearest a b :=
      hx.isNearest.unique (hvalue ▸ ht.canonical.isNearest)
    rw [heq] at hlt
    exact hlt hk.ge

/-- The decimal exponent is at least 16 exactly for numbers from ten to the sixteenth on. -/
theorem Magnitude.sixteen_le_exponent_iff (tie : Tie) (hx : x.Canonical) :
    16 ≤ (x.shortest tie).exponent ↔ 10 ^ 16 ≤ x.value := by
  rcases Nat.eq_zero_or_pos x.significand with hzero | hpos
  · rw [shortest_of_significand_eq_zero hzero, Magnitude.value_eq_zero_iff.mpr hzero]
    norm_num
  · -- the bound is a double itself, and its exponent is found by evaluation
    have hk : ((nearest (10 ^ 16) 1).shortest tie).exponent = 16 := by
      cases tie <;> decide +kernel
    rw [le_exponent_iff hx hpos Nat.one_pos (by norm_num) (by decide +kernel) hk]
    norm_num

/-- The decimal exponent is below -5 exactly for numbers other than zero below ten to the minus fifth. -/
theorem Magnitude.exponent_lt_minus_five_iff (tie : Tie) (hx : x.Canonical) :
    (x.shortest tie).exponent < -5 ↔ x.value ≠ 0 ∧ x.value < 1 / 10 ^ 5 := by
  rcases Nat.eq_zero_or_pos x.significand with hzero | hpos
  · rw [shortest_of_significand_eq_zero hzero, Magnitude.value_eq_zero_iff.mpr hzero]
    norm_num
  · -- the bound itself is the double next to it, and its exponent is found by evaluation
    have hk : ((nearest 1 (10 ^ 5)).shortest tie).exponent = -5 := by
      cases tie <;> decide +kernel
    have hvalue : x.value ≠ 0 := Magnitude.value_eq_zero_iff.not.mpr hpos.ne'
    rw [← not_le, le_exponent_iff hx hpos (by decide) (by norm_num) (by decide +kernel) hk, not_le,
      and_iff_right hvalue]
    norm_num

/-- No double has an exponent of more than three digits. -/
theorem exponent_lt (tie : Tie) (hx : x.Canonical) (hexponent : x.exponent ≤ 971) :
    (x.shortest tie).exponent < 1000 := by
  rcases Nat.eq_zero_or_pos x.significand with hzero | hpos
  · rw [shortest_of_significand_eq_zero hzero]
    decide
  · obtain ⟨n, q, hn, hshortest, -, hnearest⟩ := shortest_spec_of_pos tie hx hpos
    rw [hshortest]
    by_contra hlarge
    have hpow : (10 ^ (1000 : ℤ) : ℚ) ≤ 10 ^ (q + (natDigits n).length - 1) :=
      zpow_le_zpow_right₀ (by norm_num) (not_lt.mp hlarge)
    -- Already this magnitude is above all doubles.
    let large : Magnitude := ⟨2 ^ 52, 1000⟩
    have hlarge : large.Canonical := ⟨by decide, Or.inl le_rfl, by decide⟩
    have hvalue : large.value ≤ 10 ^ (1000 : ℤ) := by decide +kernel
    have hle := hlarge.isNearest.mono hnearest
      (hvalue.trans (hpow.trans (scientific_bounds hn q).1))
    have hlt : x.value < large.value := by
      calc x.value ≤ 2 ^ 53 * 2 ^ x.exponent :=
            mul_le_mul_of_nonneg_right (by exact_mod_cast hx.significand_lt.le) (by positivity)
        _ ≤ 2 ^ 53 * 2 ^ (971 : ℤ) :=
            mul_le_mul_of_nonneg_left (zpow_le_zpow_right₀ one_le_two hexponent) (by positivity)
        _ < large.value := by decide +kernel
    exact absurd hle (not_le.mpr hlt)

end Exponents

/-- A double is written with a large exponent exactly if its size is ten to the sixteenth or more. -/
theorem Binary64.sixteen_le_exponent_iff (x : Binary64) :
    16 ≤ (x.magnitude.shortest .even).exponent ↔ 10 ^ 16 ≤ |x.value| := by
  rw [x.abs_value]
  exact Magnitude.sixteen_le_exponent_iff .even x.canonical_magnitude

/-- A double is written with a small exponent exactly if its size is below ten to the minus fifth. -/
theorem Binary64.exponent_lt_minus_five_iff (x : Binary64) :
    (x.magnitude.shortest .even).exponent < -5 ↔ x.value ≠ 0 ∧ |x.value| < 1 / 10 ^ 5 := by
  rw [← abs_ne_zero, x.abs_value]
  exact Magnitude.exponent_lt_minus_five_iff .even x.canonical_magnitude

/-! ## Layouts -/

/-- Digits before and behind a point that are those of a known number. -/
theorem exists_numeral (whole fraction : List Char) (m : ℕ) (hne : whole ≠ [])
    (hwhole : ∀ c ∈ whole, c.isDigit) (hfraction : ∀ c ∈ fraction, c.isDigit)
    (hplaces : fraction.length ≤ 28) (hm : Nat.ofDigitChars 10 (whole ++ fraction) 0 = m)
    (hfits : m < 2 ^ 96) :
    ∃ p : Numeral, p.whole = whole ∧ p.fraction = fraction ∧ p.value = m / 10 ^ fraction.length := by
  subst hm
  refine ⟨⟨whole, fraction, hne, fun c hc => ?_, hplaces, hfits⟩, rfl, rfl, rfl⟩
  exact (List.mem_append.mp hc).elim (hwhole c) (hfraction c)

/-- The shortest digits are between one and seventeen. -/
theorem shortest_digits (tie : Tie) {x : Magnitude} (hx : x.Canonical) :
    (x.shortest tie).digits ≠ [] ∧ (∀ c ∈ (x.shortest tie).digits, c.isDigit) ∧
      (x.shortest tie).digits.length ≤ 17 := by
  obtain ⟨n, q, hshortest, hlength, -⟩ := shortest_spec tie hx
  rw [hshortest]
  exact ⟨natDigits_ne_nil n, fun _ => isDigit_of_mem_natDigits, hlength⟩

private theorem div_pow_eq {n f : ℕ} {q : ℤ} (h : q = -f) : (n / 10 ^ f : ℚ) = n * 10 ^ q := by
  rw [h, zpow_neg, zpow_natCast, div_eq_mul_inv]

section Positional

variable {n : ℕ} {q e : ℤ}

/-- A number below one: zeros behind the point come first. -/
theorem exists_positional_eq_of_neg (hlength : (natDigits n).length ≤ 17)
    (he : e = q + (natDigits n).length - 1) (hlow : -5 ≤ e) (hneg : e < 0) :
    ∃ p : Numeral, Scientific.positional true ⟨natDigits n, e⟩ = p.text ∧ p.value = n * 10 ^ q := by
  have hn : n < 10 ^ 17 := (Nat.length_toDigits_le_iff (by decide) (by decide)).mp hlength
  have hmantissa := (ofDigitChars_zeros ((-e - 1).toNat + 1) (natDigits n)).trans
    (ofDigitChars_natDigits n)
  -- the digits stand behind `0.` and as many zeros as the exponent asks for
  obtain ⟨p, hwhole, hfraction, hp⟩ := exists_numeral ['0']
    (List.replicate (-e - 1).toNat '0' ++ natDigits n) n (by simp) (by simp)
    (fun c hc => (List.mem_append.mp hc).elim isDigit_of_mem_replicate_zero isDigit_of_mem_natDigits)
    (by simp; omega) hmantissa (by omega)
  refine ⟨p, ?_, hp.trans (div_pow_eq ?_)⟩
  · simp [Scientific.positional, hneg, Numeral.text, hwhole, hfraction, natDigits_ne_nil]
  · simp
    omega

/-- A whole number: zeros follow up to the point. -/
theorem exists_positional_eq_of_whole (he : e = q + (natDigits n).length - 1) (hnonneg : 0 ≤ e)
    (hhigh : e < 16) (hwhole : (natDigits n).length ≤ e.toNat + 1) :
    ∃ p : Numeral, Scientific.positional true ⟨natDigits n, e⟩ = p.text ∧ p.value = n * 10 ^ q := by
  obtain ⟨k, rfl⟩ : ∃ k : ℕ, q = k := Int.eq_ofNat_of_zero_le (by omega)
  have hzeros : e.toNat + 1 - (natDigits n).length = k := by omega
  have hmantissa : Nat.ofDigitChars 10 (natDigits n ++ List.replicate k '0' ++ ['0']) 0 =
      n * 10 ^ (k + 1) := by
    rw [List.append_assoc, ← List.replicate_succ', Nat.ofDigitChars_append,
      Nat.ofDigitChars_replicate_zero, ofDigitChars_natDigits, mul_comm]
  have hfits : n * 10 ^ (k + 1) < 2 ^ 96 := by
    calc n * 10 ^ (k + 1) < 10 ^ (natDigits n).length * 10 ^ (k + 1) :=
          Nat.mul_lt_mul_of_pos_right (lt_pow_length_natDigits n) (by positivity)
      _ = 10 ^ ((natDigits n).length + (k + 1)) := (pow_add _ _ _).symm
      _ ≤ 10 ^ 17 := Nat.pow_le_pow_right (by decide) (by omega)
      _ ≤ 2 ^ 96 := by decide
  -- The zero behind the point counts as a place, so the mantissa is ten times the number.
  obtain ⟨p, hfront, hfraction, hp⟩ := exists_numeral (natDigits n ++ List.replicate k '0') ['0']
    (n * 10 ^ (k + 1)) (by simp [natDigits_ne_nil])
    (fun c hc => (List.mem_append.mp hc).elim isDigit_of_mem_natDigits isDigit_of_mem_replicate_zero)
    (by simp) (by simp) hmantissa hfits
  refine ⟨p, ?_, ?_⟩
  · simp [Scientific.positional, hnonneg.not_gt, hwhole, Numeral.text, hfront, hfraction, hzeros]
  · rw [hp, zpow_natCast, Nat.cast_mul, Nat.cast_pow, Nat.cast_ofNat, pow_succ, ← mul_assoc]
    simp

/-- Any other number: the point is among the digits. -/
theorem exists_positional_eq_of_places (hlength : (natDigits n).length ≤ 17)
    (he : e = q + (natDigits n).length - 1) (hnonneg : 0 ≤ e)
    (hplaces : e.toNat + 1 < (natDigits n).length) :
    ∃ p : Numeral, Scientific.positional true ⟨natDigits n, e⟩ = p.text ∧ p.value = n * 10 ^ q := by
  have hn : n < 10 ^ 17 := (Nat.length_toDigits_le_iff (by decide) (by decide)).mp hlength
  -- the point stands inside the digits, which fall into the whole part before it and the rest
  obtain ⟨p, hwhole, hfraction, hp⟩ := exists_numeral ((natDigits n).take (e.toNat + 1))
    ((natDigits n).drop (e.toNat + 1)) n (by simp [natDigits_ne_nil])
    (fun c hc => isDigit_of_mem_natDigits (List.mem_of_mem_take hc))
    (fun c hc => isDigit_of_mem_natDigits (List.mem_of_mem_drop hc)) (by simp; omega)
    (by rw [List.take_append_drop, ofDigitChars_natDigits]) (by omega)
  have hrest : ((natDigits n).drop (e.toNat + 1)).isEmpty = false := by
    simpa using hplaces
  refine ⟨p, ?_, hp.trans (div_pow_eq ?_)⟩
  · simp [Scientific.positional, hnonneg.not_gt, hplaces.not_ge, Numeral.text, hwhole, hfraction,
      hrest]
  · simp
    omega

/-- Digits without an exponent part are a numeral for the same number. -/
theorem exists_positional_eq (hlength : (natDigits n).length ≤ 17)
    (he : e = q + (natDigits n).length - 1) (hlow : -5 ≤ e) (hhigh : e < 16) :
    ∃ p : Numeral, Scientific.positional true ⟨natDigits n, e⟩ = p.text ∧ p.value = n * 10 ^ q := by
  rcases lt_or_ge e 0 with hneg | hnonneg
  · exact exists_positional_eq_of_neg hlength he hlow hneg
  · rcases le_or_gt (natDigits n).length (e.toNat + 1) with hwhole | hplaces
    · exact exists_positional_eq_of_whole he hnonneg hhigh hwhole
    · exact exists_positional_eq_of_places hlength he hnonneg hplaces

end Positional

/-- Digits with a point behind the first one. -/
def pointedDigits (digits : List Char) : List Char :=
  digits.take 1 ++ if (digits.drop 1).isEmpty then [] else '.' :: digits.drop 1

/-- With an exponent a number is its digits with a point, and the exponent with its sign. -/
theorem withExponent_eq (s : Scientific) :
    s.withExponent =
      pointedDigits s.digits ++ ['e', if s.exponent < 0 then '-' else '+'] ++
        natDigits s.exponent.natAbs :=
  rfl

/-- More digits behind such a text belong to its places, or to its whole part if it has no places. -/
theorem exists_pointedDigits_append_eq {digits run : List Char} (hne : digits ≠ [])
    (hdigits : ∀ c ∈ digits, c.isDigit) (hrun : ∀ c ∈ run, c.isDigit)
    (hlength : digits.length + run.length ≤ 28) :
    ∃ p : Numeral, pointedDigits digits ++ run = p.text ∧ p.value < 10 ^ (run.length + 1) := by
  obtain ⟨c, places, rfl⟩ := List.exists_cons_of_ne_nil hne
  have hplaces : ∀ c ∈ places ++ run, c.isDigit := fun c' hc =>
    (List.mem_append.mp hc).elim (fun h => hdigits c' (List.mem_cons_of_mem c h)) (hrun c')
  have hc : c.isDigit := hdigits c List.mem_cons_self
  have hfits : Nat.ofDigitChars 10 (c :: places ++ run) 0 < 2 ^ 96 := by
    have hlt := ofDigitChars_lt (List.forall_mem_cons.mpr ⟨hc, hplaces⟩) 0
    refine (hlt.trans_le ?_).trans (show 10 ^ 28 < 2 ^ 96 by decide)
    rw [zero_add, one_mul]
    exact Nat.pow_le_pow_right (by decide) (by simpa [add_right_comm] using hlength)
  -- One digit has no point behind it, and what follows makes the whole part longer.
  rcases places with _ | ⟨c', places⟩
  · obtain ⟨p, hwhole, hfraction, -⟩ := exists_numeral (c :: run) [] _ (by simp)
      (List.forall_mem_cons.mpr ⟨hc, hplaces⟩) (by simp) (by simp) (by rw [List.append_nil]; rfl) hfits
    refine ⟨p, ?_, ?_⟩
    · simp [pointedDigits, Numeral.text, hwhole, hfraction]
    · simpa [hwhole] using p.value_lt
  · obtain ⟨p, hwhole, hfraction, -⟩ := exists_numeral [c] (c' :: places ++ run) _ (by simp)
      (by simpa using hc) hplaces (by simp at hlength ⊢; omega) rfl hfits
    refine ⟨p, ?_, ?_⟩
    · simp [pointedDigits, Numeral.text, hwhole, hfraction]
    · refine p.value_lt.trans_le (pow_le_pow_right₀ (by norm_num) ?_)
      simp [hwhole]

end FieldQuery.Number
