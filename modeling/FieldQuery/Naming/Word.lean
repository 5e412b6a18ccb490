import FieldQuery.Text.Casing
import FieldQuery.Text.Cluster
import FieldQuery.Text.Piece

/-!
# Words of an identifier

An identifier is cut into words at underscores, hyphens and spaces, where a small letter meets a
capital, where a letter meets a digit, and before the last capital of a run of capitals that a
small letter follows. The words are written again either in small letters with underscores or run
together with a capital each.
-/

namespace FieldQuery.Naming

open FieldQuery.Text

/-- What a cluster means for the division into words. -/
inductive Shape where
  /-- A character between words. -/
  | gap
  | digit
  | small
  | capital
  | plain
deriving DecidableEq, Repr

/-- The shape of a cluster. A cluster has case if its upper and lower forms differ. -/
def shapeOf (cluster : List Char) : Shape :=
  -- the three characters that stand between words are dropped with their shape
  if cluster = ['_'] ∨ cluster = ['-'] ∨ cluster = [' '] then .gap
  else if cluster.all Char.isDigit then .digit
  else
    -- upper and lower case may change the length of a cluster, so whole clusters are compared
    let upper := uppercase cluster
    let lower := lowercase cluster
    if upper = lower then .plain
    else if cluster = upper then .capital
    else if cluster = lower then .small
    else .plain

/-- Whether a word ends after a cluster, given the shapes of the cluster and of those after it. -/
def endsWord (shape : Shape) (following : List Shape) : Bool :=
  match shape, following with
  | .small, .capital :: _ => true -- blog|Post
  | .small, .digit :: _ => true -- page|2
  | .capital, .digit :: _ => true -- A|4
  | .digit, .small :: _ => true -- 2|nd
  | .digit, .capital :: _ => true -- 3|D
  | .capital, .capital :: .small :: _ => true -- HTML|Page
  | _, _ => false

/-- A word as a list of clusters. -/
abbrev Word := List (List Char)

/-- A word, unless it is empty. -/
def keep (word : Word) : List Word :=
  if word.isEmpty then [] else [word]

/-- The words of a list of clusters that continues the word `current`. -/
def splitFrom (current : Word) : List (List Char) → List Word
  | [] => keep current
  | cluster :: rest =>
    let shape := shapeOf cluster
    if shape = .gap then keep current ++ splitFrom [] rest
    else if endsWord shape ((rest.take 2).map shapeOf) then
      keep (current ++ [cluster]) ++ splitFrom [] rest
    else splitFrom (current ++ [cluster]) rest

/-- The words of an identifier. -/
def words (identifier : List Char) : List Word :=
  splitFrom [] (clusters identifier)

/-- A word with its first cluster in upper case and the others in lower case. -/
def capitalized : Word → List Char
  | [] => []
  | first :: rest => uppercase first ++ lowercase rest.flatten

/-- The words in small letters, joined by underscores: `BlogPost` becomes `blog_post`. -/
def underscored (identifier : List Char) : List Char :=
  joined ['_'] ((words identifier).map fun word => lowercase word.flatten)

/-- The words run together with a capital each: `blog_post` becomes `BlogPost`. -/
def camelized (identifier : List Char) : List Char :=
  (words identifier).flatMap capitalized

end FieldQuery.Naming
