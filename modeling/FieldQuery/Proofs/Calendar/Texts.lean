import FieldQuery.Proofs.Calendar.Buckets
import Mathlib.Algebra.GroupWithZero.Nat

/-!
# The order of texts of dates

A year from 0 to 9999 is written in four digits, and every other component of a date has a fixed
width in all years. So the texts of two dates are compared as the dates are, and those of two moments
as the moments are. Main statements: this for dates, for moments written to the microsecond, and for
a whole second that is written without its microseconds.
-/

namespace FieldQuery.Calendar

open FieldQuery.Text

/-! ## Texts of one length -/

/-- Of two texts that begin with parts of one length these decide first. -/
theorem append_lt_append_iff {x y : List Char} (h : x.length = y.length) (u v : List Char) :
    x ++ u < y ++ v ↔ x < y ∨ x = y ∧ u < v := by
  -- induction on the first texts, which end together since they have one length
  induction x generalizing y with
  | nil =>
    obtain rfl := List.length_eq_zero_iff.mp h.symm
    simp
  | cons c x ih =>
    obtain _ | ⟨d, y⟩ := y
    · simp at h
    · have hlength : x.length = y.length := by simpa using h
      simp only [List.cons_append, List.cons_lt_cons_iff, ih hlength, List.cons.injEq]
      grind

/-- Two texts of one length are ordered as two numbers are. -/
structure SortAs (x y : List Char) (m n : Nat) : Prop where
  length_eq : x.length = y.length
  lt_iff : x < y ↔ m < n
  eq_iff : x = y ↔ m = n

private theorem mul_add_lt_mul_add_iff {m n i j b : Nat} (hi : i < b) (hj : j < b) :
    m * b + i < n * b + j ↔ m < n ∨ m = n ∧ i < j := by
  obtain h | rfl | h := Nat.lt_trichotomy m n
  · have hle : (m + 1) * b ≤ n * b := Nat.mul_le_mul_right _ h
    rw [Nat.add_mul] at hle
    omega
  · omega
  · have hle : (n + 1) * b ≤ m * b := Nat.mul_le_mul_right _ h
    rw [Nat.add_mul] at hle
    omega

namespace SortAs

variable {x y u v : List Char} {m n i j b : Nat}

/-- If texts sort as numbers do, they do so with both sides exchanged. -/
theorem symm (h : SortAs x y m n) : SortAs y x n m where
  length_eq := h.length_eq.symm
  lt_iff := by
    have heq := h.eq_iff
    have hlt := h.lt_iff
    rw [← List.not_le, List.le_iff_lt_or_eq, hlt, heq]
    omega
  eq_iff := by rw [eq_comm, h.eq_iff, eq_comm]

/-- Where a part with a number below `b` follows, the two numbers are read as one. -/
theorem append (h : SortAs x y m n) (hnext : SortAs u v i j) (hi : i < b) (hj : j < b) :
    SortAs (x ++ u) (y ++ v) (m * b + i) (n * b + j) where
  length_eq := by simp [h.length_eq, hnext.length_eq]
  -- the front decides in both orders, and what follows it only where the fronts are equal
  lt_iff := by
    rw [append_lt_append_iff h.length_eq, h.lt_iff, h.eq_iff, hnext.lt_iff,
      mul_add_lt_mul_add_iff hi hj]
  eq_iff := by
    have hlt := mul_add_lt_mul_add_iff (m := m) (n := n) hi hj
    have hgt := mul_add_lt_mul_add_iff (m := n) (n := m) hj hi
    rw [List.append_eq_append_iff_of_size_eq_left h.length_eq, h.eq_iff, hnext.eq_iff]
    omega

/-- The same character in front does not count. -/
theorem cons (c : Char) (h : SortAs x y m n) : SortAs (c :: x) (c :: y) m n where
  length_eq := by simp [h.length_eq]
  lt_iff := by simp [h.lt_iff]
  eq_iff := by simp [h.eq_iff]

/-- What follows the second one of two texts does not count. -/
theorem ofList_le_iff (h : SortAs x y m n) (v : List Char) :
    String.ofList x ≤ String.ofList (y ++ v) ↔ m ≤ n := by
  show ¬ (String.ofList (y ++ v)).toList < (String.ofList x).toList ↔ _
  have happend := append_lt_append_iff h.symm.length_eq v []
  rw [List.append_nil] at happend
  rw [String.toList_ofList, String.toList_ofList, happend, h.symm.lt_iff]
  simp [List.not_lt_nil]

end SortAs

/-! ## Digits -/

private theorem sortAs_digit {m n : Nat} (hm : m < 10) (hn : n < 10) :
    SortAs [m.digitChar] [n.digitChar] m n where
  length_eq := rfl
  lt_iff := by
    -- on one character the order of texts is the order of the characters, so of the digits they write
    rw [List.cons_lt_cons_iff]
    have hm' := Nat.toNat_digitChar_of_lt_ten hm
    have hn' := Nat.toNat_digitChar_of_lt_ten hn
    have hlt : m.digitChar < n.digitChar ↔ m.digitChar.toNat < n.digitChar.toNat := Iff.rfl
    rw [hlt, hm', hn']
    simp
  eq_iff := by
    have hm' := Nat.toNat_digitChar_of_lt_ten hm
    have hn' := Nat.toNat_digitChar_of_lt_ten hn
    rw [List.singleton_inj, ← Char.toNat_inj, hm', hn']
    omega

/-- In a width of two or more the last digit stands alone after the others. -/
theorem paddedDigits_succ (width n : Nat) :
    paddedDigits (width + 2) n = paddedDigits (width + 1) (n / 10) ++ [(n % 10).digitChar] := by
  unfold paddedDigits natDigits
  by_cases h : n < 10
  · -- The only digit stands behind one zero less of the padding.
    have hzero : n / 10 = 0 := by omega
    rw [Nat.toDigits_of_lt_base h, hzero, Nat.toDigits_of_lt_base (by decide), Nat.mod_eq_of_lt h]
    show List.replicate (width + 1) '0' ++ _ = (List.replicate width '0' ++ ['0']) ++ _
    rw [List.replicate_succ']
  · rw [Nat.toDigits_of_base_le (by decide) (Nat.le_of_not_lt h)]
    simp only [List.length_append, List.length_singleton, List.append_assoc]
    rw [Nat.add_sub_add_right (width + 1) 1]

/-- Two numbers in the same width are ordered as texts as they are as numbers. -/
theorem sortAs_paddedDigits (width : Nat) {m n : Nat} (hm : m < 10 ^ (width + 1))
    (hn : n < 10 ^ (width + 1)) :
    SortAs (paddedDigits (width + 1) m) (paddedDigits (width + 1) n) m n := by
  -- On the width: the digits before the last one are those of the tenth part.
  induction width generalizing m n with
  | zero =>
    have hdigit : ∀ k < 10, paddedDigits 1 k = [k.digitChar] := by
      intro k hk
      simp [paddedDigits, natDigits, Nat.toDigits_of_lt_base hk]
    rw [hdigit m hm, hdigit n hn]
    exact sortAs_digit hm hn
  | succ width ih =>
    rw [Nat.pow_succ] at hm hn
    have hfront := ih (Nat.div_lt_of_lt_mul (Nat.mul_comm _ 10 ▸ hm))
      (Nat.div_lt_of_lt_mul (Nat.mul_comm _ 10 ▸ hn))
    have hlast := sortAs_digit (Nat.mod_lt m (by decide : 0 < 10)) (Nat.mod_lt n (by decide : 0 < 10))
    have happend := hfront.append hlast (Nat.mod_lt m (by decide)) (Nat.mod_lt n (by decide))
    rwa [Nat.div_add_mod', Nat.div_add_mod', ← paddedDigits_succ, ← paddedDigits_succ] at happend

private theorem sortAs_two {m n : Nat} (hm : m < 100) (hn : n < 100) :
    SortAs (paddedDigits 2 m) (paddedDigits 2 n) m n :=
  sortAs_paddedDigits 1 hm hn

/-! ## Dates and moments -/

/-- The years that are written in four digits without a sign. -/
def Date.IsCommon (d : Date) : Prop :=
  0 ≤ d.year ∧ d.year ≤ 9999

instance (d : Date) : Decidable d.IsCommon := by
  unfold Date.IsCommon; infer_instance

/-- A number that is greater for later dates. -/
def Date.rank (d : Date) : Nat :=
  (d.year.natAbs * 100 + d.month) * 100 + d.day

private theorem Date.sortAs_digits {d e : Date} (hd : d.IsCommon) (he : e.IsCommon) :
    SortAs d.digits e.digits d.rank e.rank := by
  obtain ⟨-, -, hmonth, hmonth', hday, hday'⟩ := d.valid
  obtain ⟨-, -, hmonth₂, hmonth₂', hday₂, hday₂'⟩ := e.valid
  have hdays := daysInMonth_le d.year d.month
  have hdays₂ := daysInMonth_le e.year e.month
  -- a common year is written with four digits and no sign
  have hyear : SortAs (yearDigits d.year) (yearDigits e.year) d.year.natAbs e.year.natAbs := by
    obtain ⟨hlow, hhigh⟩ := hd
    obtain ⟨hlow₂, hhigh₂⟩ := he
    simp only [yearDigits, hlow, hhigh, hlow₂, hhigh₂, and_self, if_true]
    exact sortAs_paddedDigits 3 (by omega) (by omega)
  exact (hyear.append ((sortAs_two (by omega) (by omega)).cons '-') (by omega) (by omega)).append
    ((sortAs_two (by omega) (by omega)).cons '-') (by omega) (by omega)

private theorem Date.rank_le_iff {d e : Date} (hd : d.IsCommon) (he : e.IsCommon) :
    d.rank ≤ e.rank ↔ d ≤ e := by
  obtain ⟨hlow, hhigh⟩ := hd
  obtain ⟨hlow', hhigh'⟩ := he
  obtain ⟨-, -, hmonth, hmonth', hday, hday'⟩ := d.valid
  obtain ⟨-, -, hmonth₂, hmonth₂', hday₂, hday₂'⟩ := e.valid
  have hdays := daysInMonth_le d.year d.month
  have hdays₂ := daysInMonth_le e.year e.month
  rw [Date.le_iff]
  unfold rank
  omega

private theorem Date.rank_eq_iff {d e : Date} (hd : d.IsCommon) (he : e.IsCommon) :
    d.rank = e.rank ↔ d = e := by
  have hle := Date.rank_le_iff hd he
  have hge := Date.rank_le_iff he hd
  rw [Date.le_iff] at hle hge
  rw [Date.ext_iff]
  omega

/-- The texts of two dates are ordered as the dates are. -/
theorem Date.text_le_text_iff {d e : Date} (hd : d.IsCommon) (he : e.IsCommon) :
    d.text ≤ e.text ↔ d ≤ e := by
  have hle := (Date.sortAs_digits hd he).ofList_le_iff []
  rw [List.append_nil] at hle
  exact hle.trans (Date.rank_le_iff hd he)

namespace Moment

/-- A number that is greater for later seconds. -/
def rank (m : Moment) : Nat :=
  ((m.date.rank * 100 + m.time.hour) * 100 + m.time.minute) * 100 + m.time.second

variable {a t : Moment}

private theorem sortAs_digits (ha : a.date.IsCommon) (ht : t.date.IsCommon) :
    SortAs (a.date.digits ++ ' ' :: a.time.digits) (t.date.digits ++ ' ' :: t.time.digits)
      a.rank t.rank := by
  obtain ⟨hhour, hminute, hsecond, -, -⟩ := a.time.components
  obtain ⟨hhour', hminute', hsecond', -, -⟩ := t.time.components
  have hdate := Date.sortAs_digits ha ht
  have hclock : SortAs a.time.digits t.time.digits
      ((a.time.hour * 100 + a.time.minute) * 100 + a.time.second)
      ((t.time.hour * 100 + t.time.minute) * 100 + t.time.second) :=
    ((sortAs_two (by omega) (by omega)).append ((sortAs_two (by omega) (by omega)).cons ':')
      (by omega) (by omega)).append ((sortAs_two (by omega) (by omega)).cons ':')
      (by omega) (by omega)
  -- The time is appended as one part, while `rank` takes its components one after another.
  have hboth := hdate.append (hclock.cons ' ') (b := 1000000) (by omega) (by omega)
  have hrank : ∀ m : Moment, m.rank = m.date.rank * 1000000 +
      ((m.time.hour * 100 + m.time.minute) * 100 + m.time.second) := by
    intro m
    unfold rank
    omega
  rwa [hrank, hrank]

private theorem le_iff_rank (ha : a.date.IsCommon) (ht : t.date.IsCommon) :
    a ≤ t ↔ a.date.rank < t.date.rank ∨
      a.date.rank = t.date.rank ∧ a.time.micros ≤ t.time.micros := by
  have hle := Date.rank_le_iff ha ht
  have heq := Date.rank_eq_iff ha ht
  show (a.date ≤ t.date ∧ a.date ≠ t.date) ∨ a.date = t.date ∧ _ ↔ _
  rw [Ne, ← hle, ← heq]
  omega

/-- The texts of two moments to the microsecond are ordered as the moments are. -/
theorem preciseText_le_preciseText_iff (ha : a.date.IsCommon) (ht : t.date.IsCommon) :
    a.preciseText ≤ t.preciseText ↔ a ≤ t := by
  obtain ⟨hhour, hminute, hsecond, hmicros, hsum⟩ := a.time.components
  obtain ⟨hhour', hminute', hsecond', hmicros', hsum'⟩ := t.time.components
  have hprecise := (sortAs_digits ha ht).append
    ((sortAs_paddedDigits 5 hmicros hmicros').cons '.') (b := 1000000) hmicros hmicros'
  have hle := hprecise.ofList_le_iff []
  rw [List.append_nil] at hle
  refine hle.trans ?_
  rw [le_iff_rank ha ht, hsum, hsum']
  unfold rank
  omega

/-- A whole second that is written without its microseconds comes before the texts to the microsecond
of the moments from it on. -/
theorem text_le_preciseText_iff (ha : a.date.IsCommon) (ht : t.date.IsCommon)
    (hwhole : a.time.microsecond = 0) : a.text ≤ t.preciseText ↔ a ≤ t := by
  obtain ⟨hhour, hminute, hsecond, -, hsum⟩ := a.time.components
  obtain ⟨hhour', hminute', hsecond', hmicros', hsum'⟩ := t.time.components
  refine ((sortAs_digits ha ht).ofList_le_iff _).trans ?_
  rw [le_iff_rank ha ht, hsum, hsum', hwhole]
  unfold rank
  omega

end Moment

end FieldQuery.Calendar
