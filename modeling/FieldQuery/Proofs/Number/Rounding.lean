import FieldQuery.Number.Rounding
import Mathlib.Algebra.Order.Field.Power
import Mathlib.Algebra.Order.Floor.Semifield
import Mathlib.Data.Rat.Floor
import Mathlib.Tactic.FieldSimp
import Mathlib.Tactic.Linarith

/-!
# Rounding to the nearest whole number

Which whole number a quotient is rounded to is a matter of how far it is from the quotient: less than
half a unit, or half a unit if it is even. At most one number is like that, and `roundHalfEven` finds
it.
-/

namespace FieldQuery.Number

/-- A whole number that a rational may be rounded to: none is nearer, and it is even if another one
is as near. -/
structure RoundsTo (r : ℚ) (q : ℕ) : Prop where
  le_add : r ≤ q + 1 / 2
  sub_le : q - 1 / 2 ≤ r
  even : r = q + 1 / 2 ∨ r = q - 1 / 2 → q % 2 = 0

namespace RoundsTo

variable {r r' : ℚ} {p q : ℕ}

/-- Rounding keeps the order. -/
theorem mono (hp : RoundsTo r p) (hq : RoundsTo r' q) (h : r ≤ r') : p ≤ q := by
  by_contra hlt
  have hnext : (q : ℚ) + 1 ≤ p := by
    exact_mod_cast Nat.succ_le_of_lt (not_le.mp hlt)
  -- Only the middle between two neighbours is left, and one of these is odd.
  have hmiddle : r' = q + 1 / 2 := le_antisymm hq.le_add (by linarith [hp.sub_le])
  have hmiddle' : r = p - 1 / 2 := le_antisymm (by linarith [hq.le_add]) hp.sub_le
  have hsucc : p = q + 1 := by
    have hsucc : (p : ℚ) = q + 1 := by linarith [hp.sub_le, hq.le_add]
    exact_mod_cast hsucc
  have hp := hp.even (Or.inr hmiddle')
  have hq := hq.even (Or.inl hmiddle)
  omega

/-- A number is rounded to one whole number. -/
theorem unique (hp : RoundsTo r p) (hq : RoundsTo r q) : p = q :=
  le_antisymm (hp.mono hq le_rfl) (hq.mono hp le_rfl)

/-- No whole number is nearer. -/
theorem abs_sub_le (h : RoundsTo r q) (k : ℕ) : |r - q| ≤ |r - k| := by
  have hhalf : |r - q| ≤ 1 / 2 := abs_le.mpr ⟨by linarith [h.sub_le], by linarith [h.le_add]⟩
  rcases lt_trichotomy k q with hlt | rfl | hgt
  · have hle : (k : ℚ) + 1 ≤ q := by exact_mod_cast hlt
    refine hhalf.trans (le_trans ?_ (le_abs_self _))
    linarith [h.sub_le]
  · exact le_rfl
  · have hle : (q : ℚ) + 1 ≤ k := by exact_mod_cast hgt
    refine hhalf.trans (le_trans ?_ (neg_le_abs _))
    linarith [h.le_add]

end RoundsTo

/-- What it says about a quotient, without a division. -/
theorem roundsTo_div_iff {n d q : ℕ} (hd : 0 < d) :
    RoundsTo (n / d : ℚ) q ↔
      2 * n ≤ 2 * (q * d) + d ∧ 2 * (q * d) ≤ 2 * n + d ∧
        (2 * n = 2 * (q * d) + d ∨ 2 * (q * d) = 2 * n + d → q % 2 = 0) := by
  have hd' : (0 : ℚ) < d := by exact_mod_cast hd
  -- One comparison for each end of the interval, and one equation for each middle.
  have hle : (n / d : ℚ) ≤ q + 1 / 2 ↔ 2 * n ≤ 2 * (q * d) + d := by
    rw [div_le_iff₀ hd', ← Nat.cast_le (α := ℚ)]
    push_cast
    constructor <;> intro h <;> linarith
  have hge : (q - 1 / 2 : ℚ) ≤ n / d ↔ 2 * (q * d) ≤ 2 * n + d := by
    rw [le_div_iff₀ hd', ← Nat.cast_le (α := ℚ)]
    push_cast
    constructor <;> intro h <;> linarith
  have heq : (n / d : ℚ) = q + 1 / 2 ↔ 2 * n = 2 * (q * d) + d := by
    rw [div_eq_iff hd'.ne', ← Nat.cast_inj (R := ℚ)]
    push_cast
    constructor <;> intro h <;> linarith
  have heq' : (n / d : ℚ) = q - 1 / 2 ↔ 2 * (q * d) = 2 * n + d := by
    rw [div_eq_iff hd'.ne', ← Nat.cast_inj (R := ℚ)]
    push_cast
    constructor <;> intro h <;> linarith
  rw [← hle, ← hge, ← heq, ← heq']
  exact ⟨fun h => ⟨h.le_add, h.sub_le, h.even⟩, fun h => ⟨h.1, h.2.1, h.2.2⟩⟩

/-- What is computed for a fraction is what it is rounded to. -/
theorem roundsTo_roundHalfEven (n : ℕ) {d : ℕ} (hd : 0 < d) :
    RoundsTo (n / d : ℚ) (roundHalfEven n d) := by
  rw [roundsTo_div_iff hd]
  have hn := Nat.div_add_mod' n d
  have hr := Nat.mod_lt n hd
  simp only [roundHalfEven]
  split
  · rw [Nat.add_one_mul (n / d)]
    omega
  · omega

private theorem roundHalfEven_eq_iff {n d q : ℕ} (hd : 0 < d) :
    roundHalfEven n d = q ↔ RoundsTo (n / d : ℚ) q :=
  ⟨fun h => h ▸ roundsTo_roundHalfEven n hd, (roundsTo_roundHalfEven n hd).unique⟩

/-- A whole number is rounded to itself. -/
theorem roundsTo_natCast (q : ℕ) : RoundsTo q q where
  le_add := by linarith
  sub_le := by linarith
  even := by
    rintro (h | h) <;> linarith

/-- Nothing is rounded in a division by one. -/
@[simp]
theorem roundHalfEven_one (n : ℕ) : roundHalfEven n 1 = n :=
  (roundHalfEven_eq_iff Nat.one_pos).mpr (by simpa using roundsTo_natCast n)

/-- Nothing is rounded in a division without a remainder. -/
theorem roundHalfEven_mul_self (q : ℕ) {d : ℕ} (hd : 0 < d) : roundHalfEven (q * d) d = q := by
  refine (roundHalfEven_eq_iff hd).mpr ?_
  rw [Nat.cast_mul, mul_div_cancel_right₀ _ (by exact_mod_cast hd.ne')]
  exact roundsTo_natCast q

/-- The next whole number is rounded to the same multiple, unless the middle between two multiples
lies between the two numbers, or one of them is the middle and goes the other way. -/
theorem roundHalfEven_succ (n : ℕ) {d : ℕ} (hd : 0 < d) (heven : d % 2 = 0) :
    roundHalfEven (n + 1) d = roundHalfEven n d +
      if (2 * (n % d) + 2 = d ∧ n / d % 2 = 1) ∨ (2 * (n % d) = d ∧ n / d % 2 = 0) then 1 else 0 := by
  have hn := Nat.mod_add_div n d
  have hr := Nat.mod_lt n hd
  -- only when the remainder starts over does the quotient move
  by_cases hlast : n % d + 1 = d
  · have hn : n + 1 = (n / d + 1) * d := by
      rw [Nat.add_one_mul (n / d), Nat.mul_comm]
      omega
    rw [hn, roundHalfEven_mul_self _ hd]
    simp only [roundHalfEven]
    split <;> split <;> omega
  · -- otherwise the remainder is one more, and rounds up alone when it gets to the half
    obtain ⟨hdiv, hmod⟩ : (n + 1) / d = n / d ∧ (n + 1) % d = n % d + 1 :=
      (Nat.div_mod_unique hd).mpr ⟨by omega, by omega⟩
    simp only [roundHalfEven, hmod, hdiv]
    split <;> split <;> split <;> omega

/-- A quotient is rounded to one of the two whole numbers next to it. -/
theorem roundHalf_eq_or (tie : Tie) (n : ℕ) {d : ℕ} (hd : 0 < d) :
    roundHalf tie n d = n / d ∨ roundHalf tie n d = n / d + 1 := by
  cases tie with
  | even =>
    simp only [roundHalf, roundHalfEven]
    split
    · exact Or.inr rfl
    · exact Or.inl rfl
  -- rounding up is a quotient itself, so it is bounded like one
  | up =>
    have hn := Nat.div_add_mod' n d
    have hr := Nat.mod_lt n hd
    have hle : n / d ≤ roundHalfUp n d := by
      rw [roundHalfUp, Nat.le_div_iff_mul_le (by omega), Nat.mul_left_comm]
      omega
    have hlt : roundHalfUp n d < n / d + 2 := by
      rw [roundHalfUp, Nat.div_lt_iff_lt_mul (by omega), Nat.mul_left_comm, Nat.add_mul]
      omega
    rw [roundHalf]
    omega

end FieldQuery.Number
