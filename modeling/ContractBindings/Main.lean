import ContractBindings.Command.Run
import ContractBindings.Rehearsal.Compiler
import ContractBindings.Rehearsal.Node

/-! # The command line

A dry run of a command. The compiler's output is taken from the standard input, and a scripted node
stands for the chain. The files that a run would leave are named and not written.
-/

namespace ContractBindings.Main

def variableNames : List String := [
  "RPC_URL", "PRIVATE_KEY", "ACCOUNT_ADDRESS", "CHAIN_ID", "GAS", "GAS_PRICE_GWEI",
  "RECEIPT_TIMEOUT", "SOLC_VERSION", "SOLC_BINARY", "IMPORT_REMAPPINGS", "SOLC_OPTIMIZE",
  "WALLET_CONTEXT_MODULE", "DAPP_CONTEXT_MODULE", "PYTHON_DOTENV_DISABLED"]

def loadEnvironment : IO Environment := do
  let values ← variableNames.mapM fun name => do return (name, ← IO.getEnv name)
  return values.filterMap fun (name, value) => value.map fun value => (name, value)

/-- The words of a command line that can be paths. -/
def paths (args : List String) : List String :=
  Settings.envFileName :: args.flatMap fun arg =>
    match Text.cutFirst? '=' arg.toList with
    | none => [arg]
    | some (_, value) => [arg, String.ofList value]

def addFile (disk : Files.Disk) (path : String) : IO Files.Disk := do
  let path := toString (Files.Path.ofString path)
  let bytes ←
    try
      let bytes ← IO.FS.readBinFile path
      pure (some bytes.data.toList)
    catch _ => pure none
  match bytes with
  | none => return disk
  | some bytes =>
    let disk := (disk.ensureDirectories (Files.Path.ofString path).parent).1
    return (disk.attempt (disk.write path bytes)).1

def services (output : String) : Services where
  tools := Rehearsal.CompilerScript.toolchain { outcome := .output (Text.Utf8.encode output) }
  chain := Rehearsal.NodeScript.node {}

def changes (before after : Files.Disk) : List String :=
  (after.below after.here).filterMap fun (place, node) =>
    if before.node? (after.here ++ place) = some node then none else some ("/".intercalate place)

end ContractBindings.Main

open ContractBindings in
def main (args : List String) : IO UInt32 := do
  let here : Files.Place := ["work"]
  let disk ← (Main.paths args).foldlM Main.addFile ⟨[(here, .directory)], here⟩
  let state : State := { disk, environment := ← Main.loadEnvironment }
  let output ← (← IO.getStdin).readToEnd
  let (outcome, after) := (Command.run (Main.services output) args).run.run state
  after.log.forM fun line => IO.eprintln line.text
  (Main.changes disk after.disk).forM fun path => IO.eprintln ("would write " ++ path)
  match outcome with
  | .ok exit =>
    IO.print exit.stdout
    return exit.code.toUInt32
  | .error e =>
    IO.eprintln e.message
    return 1
