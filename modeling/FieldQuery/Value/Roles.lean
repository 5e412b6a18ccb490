import FieldQuery.Value.Term

/-!
# Sets of roles

A set of roles is a number whose bits stand for the roles in their declared order. A text names
roles with commas or white space between them.
-/

namespace FieldQuery.Value

open FieldQuery.Text

/-- The bits a set of roles may use. The sign bit is not one of them. -/
def roleBits : Nat := 63

/-- The names in a text. -/
def roleNames (text : List Char) : List (List Char) :=
  (text.splitOnP fun c => c == ',' || isBlank c).filter fun name => !name.isEmpty

/-- The bit of a named role: the position of the first role of that name, up to ASCII case. -/
def roleBit (roles : List String) (name : List Char) : Except ParseFault Nat :=
  match roles.findIdx? fun role => sameIgnoringCase role.toList name with
  | none => .error (.unknownRole (String.ofList name))
  | some bit => if bit < roleBits then .ok bit else .error (.roleWithoutBit (String.ofList name))

/-- The bits of named roles, added to those of `mask`. -/
def addRoles (roles : List String) (mask : Nat) : List (List Char) → Except ParseFault Nat
  | [] => .ok mask
  | name :: rest => do
    let bit ← roleBit roles name
    -- a role that is named twice sets its bit once
    addRoles roles (mask ||| 1 <<< bit) rest

/-- The number of the set of roles a text names. -/
def roleMask (roles : List String) (text : List Char) : Except ParseFault Int64 :=
  match roleNames text with
  | [] => .error .noRoles
  | names => do
    let mask ← addRoles roles 0 names
    pure (Int64.ofNat mask)

/-- Reads a set of roles. -/
def parseRoles (roles : List String) (text : String) : Except QueryError Term :=
  (reported .roles text (roleMask roles text.toList)).map .integer

end FieldQuery.Value
