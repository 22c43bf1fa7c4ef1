import ContractBindings.Build
import ContractBindings.Command.Request
import ContractBindings.ConstructorArgs

/-! # Running commands -/

namespace ContractBindings.Command

open Session

structure Exit where
  code : Nat
  stdout : String := ""
deriving DecidableEq, Repr

def Exit.misuse : Exit := { code := 2 }

def Exit.failure : Exit := { code := 1 }

def listing (contracts : Artifacts) : String :=
  String.join (contracts.map fun (name, a) => name ++ "\t" ++ a.address.display ++ "\n")

def normalPath (path : String) : String := toString (Files.Path.ofString path)

def lookAt (path : String) : Session (Option Files.Node) := do
  if Text.hasNull path then throw (.file .nullCharacter)
  return ((← get).disk.find path).toOption

/-- Whether the paths of a request can be used: the source has to be a file, and no directory can give
constructor arguments. -/
def hasUsablePaths (r : CompileRequest) : Session Bool := do
  let source ← lookAt r.source
  let _ ← lookAt r.out
  let args ← r.constructorArgs.mapM lookAt
  let _ ← r.envFile.mapM lookAt
  return source.any (· != .directory) && args != some (some .directory)

def build (services : Services) (r : CompileRequest) (args : Json CodePoints)
    (settings : Settings) : Session Exit := do
  try
    let contracts ← Build.run services {
      source := r.source, directory := some r.out, settings := some settings, args }
    return { code := 0, stdout := listing contracts }
  catch _ => return .failure

def loadSettings (r : CompileRequest) : Session Settings := do
  let settings ← Settings.load (r.envFile.map normalPath)
  ofExcept (settings.override { rpcUrl := r.rpc, compilerVersion := r.compilerVersion })

def loadArgs? (r : CompileRequest) : Session (Option (Json CodePoints)) := do
  try
    some <$> ConstructorArgs.load? (r.constructorArgs.map Files.Path.ofString)
  catch _ => return none

def compile (services : Services) (r : CompileRequest) : Session Exit := do
  if !(← hasUsablePaths r) then return .misuse
  match ← loadArgs? r with
  | none => return .misuse
  | some args => build services r args (← loadSettings r)

def check (services : Services) (envFile : Option String) : Session Exit := do
  let _ ← envFile.mapM lookAt
  let settings ← Settings.load (envFile.map normalPath)
  try
    let path ← Compilation.find services.tools settings.compilerVersion settings.compilerPath
    log .success ("solc found at " ++ path)
    return { code := 0 }
  catch e =>
    match e with
    | .noCompilerAt _ | .installFailed _ _ | .noCompiler =>
      log .error e.message
      return .failure
    | e => throw e

def fulfil (services : Services) : Request → Session Exit
  | .help => return { code := 0 }
  | .compile r => compile services r
  | .check envFile => check services envFile

/-- Run a command line. The variables that it sets end with it. -/
def run (services : Services) (args : List String) : Session Exit :=
  match Request.ofArgs args with
  | none => return .misuse
  | some request => withOwnVariables (fulfil services request)

end ContractBindings.Command
