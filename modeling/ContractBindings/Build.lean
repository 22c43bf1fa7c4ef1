import ContractBindings.Compilation
import ContractBindings.Deployment
import ContractBindings.Publication
import ContractBindings.Settings.Load

/-! # Building bindings

From a source to bindings: compile it, keep the contracts that are marked, deploy them one after the
other, and write the modules. A failure is logged and ends the build; what is written already stays.
-/

namespace ContractBindings

structure Services where
  tools : Toolchain
  chain : Chain

/-- What to build. Settings and deployer are made from the environment where they are not given. -/
structure BuildRequest where
  source : String
  directory : Option String := none
  settings : Option Settings := none
  deployer : Option Deployer := none
  args : Json CodePoints := .null

namespace Build

open Session

def compileContracts (services : Services) (settings : Settings) (source directory : Files.Path) :
    Session Artifacts := do
  let compiler ← Compilation.find services.tools settings.compilerVersion settings.compilerPath
  let output ← Compilation.compile services.tools source directory compiler settings.remappings
    settings.optimize
  let all ← ofLogged (Extraction.run (← Compilation.readOutput (toString output)))
  let contracts := all.deployable
  let names := ", ".intercalate contracts.keys
  log .info ("deployable contracts: " ++ if names = "" then "none" else names)
  return contracts

def theDeployer (settings : Settings) : Option Deployer → Session Deployer
  | some d => pure d
  | none => do
    record (.node settings.rpcUrl)
    return .ofSettings settings

def report (d : Deployed) : Session Unit :=
  log .info (d.name ++ " at " ++ d.address.display ++ ", tx " ++ d.hash)

def deployContracts (services : Services) (settings : Settings) (deployer : Option Deployer)
    (args : Json CodePoints) (contracts : Artifacts) : Session Artifacts := do
  modify fun s => { s with contracts }
  if !contracts.isEmpty then
    let deployer ← theDeployer settings deployer
    let tasks ← ofExcept (Deployment.plan contracts args)
    let results ← deployer.run services.chain tasks
    results.forM report
  return (← get).contracts

def stages (services : Services) (settings : Settings) (request : BuildRequest) : Session Artifacts := do
  let source := Files.Path.ofString request.source
  let directory := Files.Path.ofString ((request.directory.filter (· != "")).getD "./")
  let contracts ← compileContracts services settings source directory
  let contracts ← deployContracts services settings request.deployer request.args contracts
  let (client, hooks) ← Publication.write contracts directory source.stem (some source.name)
    settings.contexts
  log .success ("bindings written to " ++ toString client ++ " and " ++ toString hooks)
  return contracts

def run (services : Services) (request : BuildRequest) : Session Artifacts := do
  let settings ←
    match request.settings with
    | some settings => pure settings
    | none => Settings.load none
  try
    stages services settings request
  catch e =>
    log .error ("compilation failed: " ++ e.message)
    throw e

end Build

end ContractBindings
