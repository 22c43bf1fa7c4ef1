import ContractBindings.Binding.Member

/-! # The client module

A table of the contracts, and one class per contract with one method per function.
-/

namespace ContractBindings

def linesText (lines : List String) : String := String.join (lines.map (· ++ "\n"))

def generatedNote (source : String) : String :=
  "// Generated by sol2js from " ++ source ++ ". Do not edit by hand."

def Member.args (m : Member) : String := ", ".intercalate m.params

namespace Client

/-- The table of the contracts that are bound. A binding without an artifact has no place in it. -/
def table (artifacts : Artifacts) (bindings : List Binding) : Except Error (List (String × Json)) :=
  bindings.mapM fun b =>
    match artifacts.get? b.name with
    | some a => .ok (b.name, a.toJson)
    | none => .error (.missingContract b.name)

def methodLines (m : Member) : List String := [
  "",
  "    async " ++ m.method ++ "(" ++ m.args ++ ") \x7b",
  "        return await " ++ m.callExpr ++ "(" ++ m.args ++ ");",
  "    \x7d"]

def classLines (b : Binding) : List String := [
  "",
  "class " ++ b.name ++ " \x7b",
  "    constructor(contract) \x7b",
  "        this.contract = contract;",
  "    \x7d"] ++ b.members.flatMap methodLines ++ ["\x7d"]

def exports (bindings : List Binding) : String :=
  ", ".intercalate ("contracts" :: bindings.map (·.name))

def lines (table : List (String × Json)) (bindings : List Binding) (source : String) : List String :=
  [generatedNote source, "const contracts = " ++ (Json.obj table).pretty ++ ";"] ++
    bindings.flatMap classLines ++ ["", "export \x7b " ++ exports bindings ++ " \x7d;"]

def render (artifacts : Artifacts) (bindings : List Binding) (source : String) : Except Error String := do
  return linesText (lines (← table artifacts bindings) bindings source)

end Client

end ContractBindings
