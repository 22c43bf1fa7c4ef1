import ContractBindings.Artifact
import ContractBindings.Json.Printer
import ContractBindings.Text.Alphanumeric
import ContractBindings.Text.Uppercase

/-! # Members of a binding

Each function of a contract becomes a method. A function whose name no other one shares keeps its
name; the others carry their types in the name and are called through their signature. A method whose
name is taken gets a number.
-/

namespace ContractBindings

/-- A method of a generated class: the function it calls, its parameters, its own name, and the key
under which the function is found. -/
structure Member where
  contract : String
  name : String
  params : List String
  payable : Bool
  method : String
  callKey : String
deriving DecidableEq, Repr

namespace Abi.Entry

def overridesParam : String := "overrides"

def paramNames (e : Entry) : List String :=
  e.parameters.map (fun p => p.shape.typeName ++ "_" ++ p.name) ++
    if e.payable then [overridesParam] else []

def nameChar (c : Char) : Char := if Text.isAlphanumeric c || c = '_' then c else '_'

def overloadSuffix (e : Entry) : String :=
  String.ofList (("_".intercalate (e.shapes.map (·.canonical))).toList.map nameChar)

end Abi.Entry

namespace Member

def hookName (m : Member) : String :=
  let capital :=
    match m.method.toList with
    | [] => []
    | c :: cs => Text.uppercase c ++ cs
  "use" ++ m.contract ++ String.ofList capital

def callExpr (m : Member) : String :=
  if m.callKey = m.name then "this.contract." ++ m.name
  else "this.contract[" ++ (Json.str m.callKey).text ++ "]"

/-! ## Names of methods -/

def isOverloaded (functions : List Abi.Entry) (f : Abi.Entry) : Bool :=
  1 < functions.countP (·.name == f.name)

def baseName (functions : List Abi.Entry) (f : Abi.Entry) : String :=
  if isOverloaded functions f && !f.parameters.isEmpty then f.name ++ "_" ++ f.overloadSuffix
  else f.name

/-- The names that a method may get, in order: the plain one, then those with the numbers from two
on. -/
def candidate (base : String) : Nat → String
  | 0 => base
  | n + 1 => base ++ "_" ++ toString (n + 2)

/-- The first candidate that is not taken; among one more candidates than there are taken names, one
is free. -/
def freeName (taken : List String) (base : String) : String :=
  (((List.range (taken.length + 1)).map (candidate base)).find? (!taken.contains ·)).getD base

/-- The members for a list of functions, when the functions in front have taken some names. -/
def build (contract : String) (functions : List Abi.Entry) :
    (taken : List String) → List Abi.Entry → List Member
  | _, [] => []
  | taken, f :: fs =>
    let method := freeName taken (baseName functions f)
    { contract
      name := f.name
      params := f.paramNames
      payable := f.payable
      method
      callKey := if isOverloaded functions f then f.signature else f.name } ::
      build contract functions (method :: taken) fs

def ofEntries (contract : String) (entries : List Abi.Entry) : List Member :=
  let functions := entries.filter (·.isFunction)
  build contract functions [] functions

end Member

structure Binding where
  name : String
  members : List Member
deriving DecidableEq, Repr

def Binding.ofArtifacts (artifacts : Artifacts) : List Binding :=
  artifacts.deployable.map fun (name, a) => ⟨name, Member.ofEntries name a.entries⟩

end ContractBindings
