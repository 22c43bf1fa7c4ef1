import ContractBindings.Decimal.Binary64
import ContractBindings.Json.Basic

/-! # Numbers that may be whole -/

namespace ContractBindings

/-- A number as it was given: an integer or a binary floating-point number. -/
inductive Number where
  | int (n : Int)
  | double (x : Binary64)
deriving DecidableEq, Repr

namespace Number

def toJson : Number → Json
  | int n => .int n
  | double x => .double x

def ofJson? : Json → Option Number
  | .int n => some (int n)
  | .double x => some (double x)
  | _ => none

def isZero (n : Number) : Bool := n.toJson.isZero

end Number

end ContractBindings
