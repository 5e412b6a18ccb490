/-!
# Ranges of code points

A character class is a list of closed ranges of code points. Membership is decided by looking at
each range in turn, which keeps it open to evaluation inside a proof.
-/

namespace FieldQuery.Text

/-- Closed ranges of code points, in ascending order. -/
abbrev CodeRanges := List (Nat × Nat)

/-- Whether a character lies in one of the ranges. -/
def CodeRanges.contains (ranges : CodeRanges) (c : Char) : Bool :=
  ranges.any fun r => r.1 ≤ c.toNat && c.toNat ≤ r.2

end FieldQuery.Text
