import ContractBindings.Artifact
import ContractBindings.Log

/-! # Contracts in the output of the compiler

The compiler names each contract by its file and its own name, `path/File.sol:Name`. Two contracts of
one name share an artifact, and the last one stays, with a warning. The interface that only marks
contracts for deployment is left out.
-/

namespace ContractBindings.Extraction

/-- Work that writes log lines and can fail; the lines written before a failure stay. -/
abbrev Logged := ExceptT Error (StateM (List LogLine))

/-- The file and the name in a key; a key without a colon is a name. -/
def splitKey (key : String) : String × String :=
  match Text.cutLast? ':' key.toList with
  | none => ("", key)
  | some (path, name) => (String.ofList path, String.ofList name)

def fileName (path : String) : String :=
  match Text.cutLast? '/' path.toList with
  | none => path
  | some (_, name) => String.ofList name

/-- Whether a key belongs to the marker interface, by its file or by its name. -/
def isMarker (key : String) : Bool :=
  let (path, name) := splitKey key
  fileName path == "Deployable.sol" || name == "Deployable"

/-- The ABI of a contract, which old compilers put into a string. -/
def loadAbi : Json → Except Error Json
  | .str "" => .ok (.arr [])
  | .str s => (Json.read s.toList).mapError .badJson
  | v => .arr <$> v.itemsOrNone

def loadContract (key : String) (contract : Json) : Except Error Artifact := do
  let (path, name) := splitKey key
  let abi ← loadAbi (← contract.field "abi")
  let bytecode := (← contract.field? "bin").getD (.str "")
  Artifact.ofAbi name abi bytecode (if path = "" then none else some path)

def warning (name : String) (old : Artifact) (path : String) : LogLine :=
  ⟨.warning, "contract name " ++ name ++ " defined in both " ++ (Json.ofText? old.source).display ++
    " and " ++ path ++ "; keeping the last definition"⟩

def addContract (found : Artifacts) (key : String) (contract : Json) : Logged Artifacts := do
  if isMarker key then return found
  let (path, name) := splitKey key
  let artifact ← loadContract key contract
  if let some old := found.get? name then modify (· ++ [warning name old path])
  return found.insert name artifact

def run (combined : Json) : Logged Artifacts := do
  let contracts ← combined.field "contracts"
  let contracts ← if contracts.isTruthy then contracts.fields? else pure []
  contracts.foldlM (fun found (key, contract) => addContract found key contract) []

end ContractBindings.Extraction
