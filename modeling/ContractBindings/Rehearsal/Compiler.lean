import ContractBindings.Toolchain

/-! # A scripted compiler -/

namespace ContractBindings.Rehearsal

inductive CompileOutcome where
  | nothing
  | output (bytes : List UInt8)
  | failure (report : CompilerReport)
  | noRun (text : String)

structure CompilerScript where
  onPath : Option String := some "/usr/bin/solc"
  installError : Option String := none
  executableError : Option String := none
  installed : Option String := none
  outcome : CompileOutcome := .nothing

def CompilerScript.toolchain (s : CompilerScript) : Toolchain where
  onPath _ := s.onPath
  install _ :=
    match s.installError with
    | some text => .error (.call text)
    | none => .ok ()
  executable version :=
    match version, s.executableError, s.installed with
    | some _, some text, _ => .error (.notInstalled text)
    | some version, none, _ => .ok ("/solcx/solc-v" ++ version)
    | none, _, some path => .ok path
    | none, _, none => .error (.notInstalled "no solc installed")
  compile _ :=
    match s.outcome with
    | .nothing => .ok none
    | .output bytes => .ok (some bytes)
    | .failure report => .error (.compilerFailed report)
    | .noRun text => .error (.system text)

end ContractBindings.Rehearsal
