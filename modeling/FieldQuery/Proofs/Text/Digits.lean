import FieldQuery.Text.Numeral
import Mathlib.Algebra.Order.Ring.Nat

/-!
# Decimal digits

What a run of digits stands for and how long it is: a number below the power of ten of its length, and,
for the digits of a number, this number. The zeros at the end of a number can be taken off as a power
of ten.
-/

namespace FieldQuery.Text

/-! ## Runs of digits -/

/-- The digits are the characters from 48 to 57. -/
theorem toNat_of_isDigit {c : Char} (h : c.isDigit) : 48 ≤ c.toNat ∧ c.toNat ≤ 57 := by
  simpa [Char.isDigit, UInt32.le_iff_toNat_le, ← Char.toNat_val] using h

theorem isDigit_of_mem_replicate_zero {k : ℕ} {c : Char} (h : c ∈ List.replicate k '0') :
    c.isDigit := by
  rw [List.eq_of_mem_replicate h]
  decide

/-- A run of digits counts less than the power of its length. -/
theorem ofDigitChars_lt {run : List Char} (h : ∀ c ∈ run, c.isDigit) (front : Nat) :
    Nat.ofDigitChars 10 run front < (front + 1) * 10 ^ run.length := by
  -- induction on the run, reading from the front: each digit multiplies by ten and adds less than ten
  induction run generalizing front with
  | nil => simp [Nat.ofDigitChars_nil]
  | cons c run ih =>
    have hc : c.toNat - '0'.toNat < 10 := by
      have hdigit := toNat_of_isDigit (h c List.mem_cons_self)
      have hzero : '0'.toNat = 48 := rfl
      omega
    rw [Nat.ofDigitChars_cons]
    calc Nat.ofDigitChars 10 run (10 * front + (c.toNat - '0'.toNat))
        < (10 * front + (c.toNat - '0'.toNat) + 1) * 10 ^ run.length :=
          ih (fun d hd => h d (List.mem_cons_of_mem c hd)) _
      _ ≤ (front + 1) * 10 * 10 ^ run.length := Nat.mul_le_mul_right _ (by omega)
      _ = (front + 1) * 10 ^ (run.length + 1) := by
          rw [Nat.pow_succ, Nat.mul_assoc, Nat.mul_comm 10]

/-- More digits make a larger number. -/
theorem le_ofDigitChars (run : List Char) (front : ℕ) : front ≤ Nat.ofDigitChars 10 run front := by
  induction run generalizing front with
  | nil => exact le_rfl
  | cons c run ih =>
    rw [Nat.ofDigitChars_cons]
    exact le_trans (by omega) (ih _)

/-- Zeros in front count nothing. -/
theorem ofDigitChars_zeros (k : ℕ) (run : List Char) :
    Nat.ofDigitChars 10 (List.replicate k '0' ++ run) 0 = Nat.ofDigitChars 10 run 0 := by
  rw [Nat.ofDigitChars_append, Nat.ofDigitChars_replicate_zero, Nat.mul_zero]

/-! ## The digits of a number -/

/-- A number is written in digits. -/
theorem isDigit_of_mem_natDigits {n : Nat} {c : Char} (h : c ∈ natDigits n) : c.isDigit :=
  Nat.isDigit_of_mem_toDigits (by decide) (by decide) h

/-- Every number has a digit. -/
theorem natDigits_ne_nil (n : ℕ) : natDigits n ≠ [] :=
  List.ne_nil_of_length_pos Nat.length_toDigits_pos

/-- The digits of a number are read back. -/
@[simp]
theorem ofDigitChars_natDigits (n : ℕ) : Nat.ofDigitChars 10 (natDigits n) 0 = n :=
  Nat.ofDigitChars_toDigits (by decide) (by decide)

/-- A number is less than the power of the number of its digits. -/
theorem lt_pow_length_natDigits (n : ℕ) : n < 10 ^ (natDigits n).length :=
  (Nat.length_toDigits_le_iff (by decide) Nat.length_toDigits_pos).mp le_rfl

/-- The number of digits of a positive number. -/
theorem pow_length_natDigits {n : ℕ} (hn : 0 < n) :
    10 ^ ((natDigits n).length - 1) ≤ n ∧ n < 10 ^ (natDigits n).length := by
  have hlength : 0 < (natDigits n).length := Nat.length_toDigits_pos
  refine ⟨?_, lt_pow_length_natDigits n⟩
  -- a single digit is at least one; more of them are only written for a number that needs them
  rcases Nat.eq_zero_or_pos ((natDigits n).length - 1) with hzero | hpos
  · rw [hzero]
    exact hn
  · by_contra hlt
    have hle := (Nat.length_toDigits_le_iff (by decide) hpos).mpr (not_le.mp hlt)
    unfold natDigits at *
    omega

/-- Digits without the zeros at their end. -/
theorem exists_dropWhile_natDigits {c : ℕ} (hc : 0 < c) :
    ∃ n z, 0 < n ∧ n % 10 ≠ 0 ∧ c = n * 10 ^ z ∧
      ((natDigits c).reverse.dropWhile (· == '0')).reverse = natDigits n ∧
        (natDigits c).length = (natDigits n).length + z := by
  have hdigit : ∀ k < 10, k ≠ 0 → Nat.digitChar k ≠ '0' := by decide
  -- On the number, because a zero at the end leaves the digits of its tenth.
  induction c using Nat.strongRecOn with
  | ind c ih =>
    by_cases hlast : c % 10 = 0
    · have hlarge : ¬ c < 10 := by omega
      obtain ⟨n, z, hn, hend, hvalue, hdrop, hlength⟩ := ih (c / 10) (by omega) (by omega)
      have hdigits : natDigits c = natDigits (c / 10) ++ ['0'] := by
        rw [natDigits, Nat.toDigits_eq_if (by decide), if_neg hlarge, hlast]
        rfl
      refine ⟨n, z + 1, hn, hend, ?_, ?_, ?_⟩
      · rw [pow_succ, ← mul_assoc, ← hvalue]
        omega
      · rw [hdigits]
        simpa using hdrop
      · rw [hdigits, List.length_append, hlength]
        rfl
    · refine ⟨c, 0, hc, hlast, by simp, ?_, rfl⟩
      obtain ⟨front, hfront⟩ : ∃ front, natDigits c = front ++ [Nat.digitChar (c % 10)] := by
        rw [natDigits, Nat.toDigits_eq_if (by decide)]
        split
        · next hsmall => exact ⟨[], by rw [Nat.mod_eq_of_lt hsmall]; rfl⟩
        · exact ⟨_, rfl⟩
      rw [hfront]
      simp [hdigit _ (Nat.mod_lt c (by decide)) hlast]

/-! ## Digits in a width -/

section Padded

variable {width n : ℕ}

/-- Padding is done with digits. -/
theorem isDigit_of_mem_paddedDigits {c : Char} (h : c ∈ paddedDigits width n) : c.isDigit := by
  rcases List.mem_append.mp h with h | h
  · exact isDigit_of_mem_replicate_zero h
  · exact isDigit_of_mem_natDigits h

theorem paddedDigits_ne_nil (width n : ℕ) : paddedDigits width n ≠ [] :=
  List.append_ne_nil_of_right_ne_nil _ (natDigits_ne_nil n)

/-- Padded digits have at least the width. -/
theorem le_length_paddedDigits (width n : ℕ) : width ≤ (paddedDigits width n).length := by
  rw [paddedDigits, List.length_append, List.length_replicate]
  omega

/-- The digits of a number that fits the width have exactly this width. -/
theorem length_paddedDigits (hwidth : 0 < width) (h : n < 10 ^ width) :
    (paddedDigits width n).length = width := by
  have hle : (natDigits n).length ≤ width := (Nat.length_toDigits_le_iff (by decide) hwidth).mpr h
  rw [paddedDigits, List.length_append, List.length_replicate]
  omega

/-- Zeros in front do not change the number. -/
@[simp]
theorem ofDigitChars_paddedDigits (width n : ℕ) :
    Nat.ofDigitChars 10 (paddedDigits width n) 0 = n :=
  (ofDigitChars_zeros _ _).trans (ofDigitChars_natDigits n)

end Padded

end FieldQuery.Text
