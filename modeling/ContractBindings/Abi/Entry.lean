import ContractBindings.Abi.Shape

/-! # Entries of an ABI -/

namespace ContractBindings.Abi

structure Parameter where
  name : String
  shape : Shape
deriving Repr, Inhabited

def Parameter.ofJson (v : Json) : Except Error Parameter := do
  let name ← v.textField "name"
  let shape ← Shape.ofJson v
  return ⟨name, shape⟩

structure Entry where
  name : String
  parameters : List Parameter
  payable : Bool
  kind : Json
deriving Repr, Inhabited

namespace Entry

/-- The kind of functions, which is also the kind of an entry that does not say its own. -/
def functionKind : Json := .str "function"

/-- An entry as the ABI gives it. An old ABI says by a flag that a function takes a payment, a new one
by its mutability. -/
def ofJson (v : Json) : Except Error Entry := do
  let kind ← v.field "type"
  let flag ← v.field "payable"
  let mutability ← v.field "stateMutability"
  let parameters ← (← (← v.field "inputs").itemsOrNone).mapM Parameter.ofJson
  let name ← v.textField "name"
  return {
    name
    parameters
    payable := flag.isTruthy || mutability = .str "payable"
    kind := if kind.isTruthy then kind else functionKind }

def shapes (e : Entry) : List Shape := e.parameters.map (·.shape)

def signature (e : Entry) : String :=
  e.name ++ "(" ++ Shape.canonicalList e.shapes ++ ")"

def isFunction (e : Entry) : Bool := e.kind = functionKind

end Entry

end ContractBindings.Abi
