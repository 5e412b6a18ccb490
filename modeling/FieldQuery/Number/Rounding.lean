/-!
# Rounding a quotient

Two ways to bring a quotient of natural numbers to a whole number. Both stay within half a unit of
the quotient; they differ where it lies exactly in the middle. A `Tie` names one of the two.
-/

namespace FieldQuery.Number

/-- The whole number nearest to `n / d`; a tie goes to the even neighbour. -/
def roundHalfEven (n d : Nat) : Nat :=
  let q := n / d
  let r := n % d
  if d < 2 * r ∨ (2 * r = d ∧ q % 2 = 1) then q + 1 else q

/-- The whole number nearest to `n / d`; a tie goes up. -/
def roundHalfUp (n d : Nat) : Nat :=
  (2 * n + d) / (2 * d)

/-- Which of its two neighbours a number in the middle is rounded to. -/
inductive Tie where
  | even
  | up
deriving DecidableEq, Repr

/-- The whole number nearest to `n / d`, a tie going as it is told. -/
def roundHalf (tie : Tie) (n d : Nat) : Nat :=
  match tie with
  | .even => roundHalfEven n d
  | .up => roundHalfUp n d

end FieldQuery.Number
