import FieldQuery.Text.ClusterTable

/-!
# Clusters

A cluster is a character together with the marks and joiners written on it, as a reader sees it.
The division follows the rules for extended grapheme clusters as far as they concern characters
with case, digits and the marks on them; syllables, conjuncts and flags, which no rule of this
library looks into, are left as single characters.
-/

namespace FieldQuery.Text

/-- A mark or joiner that attaches to the character before it. -/
def isExtending (c : Char) : Bool :=
  !(c.toNat < 0x80) && extendingRanges.contains c

/-- A control character. -/
def isControl (c : Char) : Bool :=
  c = '\n' || c = '\r' || controlRanges.contains c

/-- Whether `next` belongs to the cluster `current`, which is given from its last character. -/
def joinsCluster (current : List Char) (next : Char) : Bool :=
  match current with
  | [] => true
  | last :: earlier =>
    if last = '\r' && next = '\n' then true
    else if isControl last || isControl next then false
    else if isExtending next || prependedRanges.contains last then true
    else
      -- Two pictographs on both sides of a joiner.
      last.toNat == 0x200D && pictographRanges.contains next &&
        match earlier.dropWhile isExtending with
        | c :: _ => pictographRanges.contains c
        | [] => false

/-- The clusters of a text that follows `current`, a cluster given from its last character. -/
def clustersFrom (current : List Char) : List Char → List (List Char)
  | [] => [current.reverse]
  | c :: rest =>
    if joinsCluster current c then clustersFrom (c :: current) rest
    else current.reverse :: clustersFrom [c] rest

/-- The clusters of a text, in order. -/
def clusters : List Char → List (List Char)
  | [] => []
  | c :: rest => clustersFrom [c] rest

end FieldQuery.Text
