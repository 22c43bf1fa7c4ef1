import ContractBindings.Json.Access

/-! # Shapes of parameters

The type of a parameter with its tuples spelled out: `tuple[]` becomes `(address,uint256)[]`. Names
play no part, so two parameters are called alike exactly if they have one shape.
-/

namespace ContractBindings.Abi

/-- The type of a parameter: an elementary one by its name, or a tuple by what follows the word and by
its components. -/
inductive Shape where
  | elementary (name : String)
  | tuple (suffix : String) (components : List Shape)
deriving Repr, Inhabited

namespace Shape

def tupleWord : List Char := ['t', 'u', 'p', 'l', 'e']

def typeName : Shape → String
  | elementary name => name
  | tuple suffix _ => String.ofList (tupleWord ++ suffix.toList)

mutual
def chars : Shape → List Char
  | elementary name => name.toList
  | tuple suffix components => '(' :: listChars components ++ ')' :: suffix.toList
def listChars : List Shape → List Char
  | [] => []
  | [s] => chars s
  | s :: t :: ss => chars s ++ ',' :: listChars (t :: ss)
end

def canonical (s : Shape) : String := String.ofList s.chars

def canonicalList (ss : List Shape) : String := String.ofList (listChars ss)

mutual
def ofJson : Json → Except Error Shape
  | .obj fields => do
    let type ← Json.textField (.obj fields) "type"
    match Text.dropLead? tupleWord type.toList with
    | none => .ok (elementary type)
    | some suffix => do
      let components ← componentsIn fields
      .ok (tuple (String.ofList suffix) components)
  | v => .error (.noField v.kindName "get")
def componentsIn : List (String × Json) → Except Error (List Shape)
  | [] => .ok []
  | (k, v) :: fields => if k = "components" then ofComponents v else componentsIn fields
def ofComponents : Json → Except Error (List Shape)
  | .arr vs => ofList vs
  | .str "" | .obj [] => .ok []
  | .str _ | .obj _ => .error (.noField "str" "get")
  | v => if v.isTruthy then .error (.noItems v.kindName) else .ok []
def ofList : List Json → Except Error (List Shape)
  | [] => .ok []
  | v :: vs => do
    let s ← ofJson v
    let ss ← ofList vs
    .ok (s :: ss)
end

end Shape

end ContractBindings.Abi
