import ContractBindings.Binding.Hooks
import ContractBindings.Session

/-! # Writing the generated modules -/

namespace ContractBindings.Publication

open Session

def hooksDirectory : String := "hooks"

def write (artifacts : Artifacts) (directory : Files.Path) (stem : String)
    (sourceName : Option String) (contexts : Hooks.Contexts) : Session (Files.Path × Files.Path) := do
  let source := (sourceName.filter (· != "")).getD (stem ++ ".sol")
  let bindings := Binding.ofArtifacts artifacts
  let client := directory.join (stem ++ ".js")
  let hooks := (directory.join hooksDirectory).join (stem ++ ".js")
  ensureDirectories hooks.parent
  writeText (toString client) (← ofExcept (Client.render artifacts bindings source))
  writeText (toString hooks) (Hooks.render bindings source ("../" ++ stem ++ ".js") contexts)
  return (client, hooks)

end ContractBindings.Publication
