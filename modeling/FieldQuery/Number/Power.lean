/-!
# Powers of two and of ten

The weights of the places of a number in the two bases that occur here.
-/

namespace FieldQuery.Number

/-- The weight of a binary place. -/
def twoTo (n : Nat) : Nat :=
  Nat.pow 2 n

/-- The weight of a decimal place. -/
def tenTo (n : Nat) : Nat :=
  Nat.pow 10 n

end FieldQuery.Number
