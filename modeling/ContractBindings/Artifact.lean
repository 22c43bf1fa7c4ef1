import ContractBindings.Abi.Entry

/-! # Compiled contracts -/

namespace ContractBindings

/-- A compiled contract: its ABI with the entries in it, its bytecode, the address that it was deployed
at, and the file it comes from. -/
structure Artifact where
  name : String
  abi : Json
  bytecode : Json
  entries : List Abi.Entry
  address : Json := .null
  source : Option String := none
  deployable : Bool
deriving Repr, Inhabited

namespace Artifact

def marker : String := "deployable"

def ofAbi (name : String) (abi bytecode : Json) (source : Option String) : Except Error Artifact := do
  let entries ← (← abi.items?).mapM Abi.Entry.ofJson
  return { name, abi, bytecode, entries, source, deployable := entries.any (·.name == marker) }

def toJson (a : Artifact) : Json :=
  .obj [("abi", a.abi), ("bin", a.bytecode), ("address", a.address)]

end Artifact

abbrev Artifacts := Keyed Artifact

def Artifacts.deployable (as : Artifacts) : Artifacts := as.filter (·.2.deployable)

end ContractBindings
