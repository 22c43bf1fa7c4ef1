import ContractBindings.Error

/-! # Fields and items of JSON values

Values of the wrong kind are met in files that other programs wrote, so every access can fail.
-/

namespace ContractBindings.Json

variable {σ : Type}

def field? [DecidableEq σ] (v : Json σ) (name : σ) : Except Error (Option (Json σ)) :=
  match v with
  | .obj fields => .ok (Keyed.get? fields name)
  | v => .error (.noField v.kindName "get")

/-- The value of an object under a name; null stands for a missing one. -/
def field (v : Json) (name : String) : Except Error Json := do
  return (← v.field? name).getD .null

/-- What a value yields when it is gone through: items, characters or keys. -/
def items? [JsonString σ] : Json σ → Except Error (List (Json σ))
  | .arr vs => .ok vs
  | .str s => .ok ((JsonString.characters s).map .str)
  | .obj fields => .ok (fields.map fun (k, _) => .str k)
  | v => .error (.noItems v.kindName)

def itemsOrNone (v : Json) : Except Error (List Json) :=
  if v.isTruthy then v.items? else .ok []

def fields? : Json → Except Error (Keyed Json)
  | .obj fields => .ok fields
  | v => .error (.noField v.kindName "items")

/-- The text of the field under a name; the empty text stands for a missing field. -/
def textField (v : Json) (name : String) : Except Error String := do
  match ← v.field? name with
  | none => return ""
  | some v => return v.display

end ContractBindings.Json
