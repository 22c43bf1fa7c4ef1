import ContractBindings.Session

/-! # Constructor arguments

A JSON file that gives each contract, by its name, the list of its constructor's arguments. The names
and the arguments are kept as the file has them, with surrogates that stand alone.
-/

namespace ContractBindings.ConstructorArgs

open Session

def isWellShaped : Json CodePoints → Bool
  | .obj fields => fields.all fun (_, v) =>
    match v with
    | .arr _ => true
    | _ => false
  | _ => false

def load (path : Files.Path) : Session (Json CodePoints) := do
  let v ←
    try
      readJson (toString path)
    catch e => throw (.argumentsUnreadable (toString path) e)
  if isWellShaped v then return v
  throw .argumentsMisshapen

def load? : Option Files.Path → Session (Json CodePoints)
  | none => return .null
  | some path => load path

end ContractBindings.ConstructorArgs
