import ContractBindings.Error

/-! # The compiler and its installer -/

namespace ContractBindings

structure CompileJob where
  source : String
  directory : String
  remappings : List String
  optimize : Bool
  compiler : String
deriving DecidableEq, Repr

inductive ToolCall where
  | onPath (program : String)
  | install (version : String)
  | executable (version : Option String)
  | compile (job : CompileJob)
deriving DecidableEq, Repr

/-- A compiler and its installer: where a program is found, how a version is installed and where it
lies, and what the compiler writes about a source, if it writes anything. -/
structure Toolchain where
  onPath : String → Option String
  install : String → Except Error Unit
  executable : Option String → Except Error String
  compile : CompileJob → Except Error (Option (List UInt8))

end ContractBindings
