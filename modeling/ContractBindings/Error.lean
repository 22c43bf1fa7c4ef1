import ContractBindings.Files.Failure
import ContractBindings.Json.Display
import ContractBindings.Json.Reader
import ContractBindings.Text.Blank
import ContractBindings.Text.Utf8

/-! # Errors

Every way in which a stage can fail, with the text that is shown for it.
-/

namespace ContractBindings

structure CompilerReport where
  message : Option String
  command : List Json
  exitCode : Json
  stdout : Option String
  stderr : Option String
deriving DecidableEq, Repr

def CompilerReport.text (r : CompilerReport) : String :=
  let line (o : Option String) : String := (Json.ofText? o).display
  Text.strip <|
    r.message.getD "An error occurred during execution" ++
      "\n> command: \x60" ++ " ".intercalate (r.command.map Json.display) ++ "\x60" ++
      "\n> return code: \x60" ++ r.exitCode.display ++ "\x60" ++
      "\n> stdout:\n" ++ line r.stdout ++ "\n> stderr:\n" ++ line r.stderr

/-- What the compiler wrote about its failure, or the whole report if it wrote nothing. -/
def CompilerReport.complaint (r : CompilerReport) : String :=
  match r.stderr with
  | some "" => r.text
  | some s => s
  | none => r.text

inductive Error where
  | noField (kind field : String)
  | noItems (kind : String)
  | unknownSetting (name : String)
  | missingContract (name : String)
  | badJson (e : Json.SyntaxError)
  | badUtf8 (f : Text.Utf8.Fault)
  | file (f : Files.Failure)
  | system (text : String)
  | badInteger (text : String)
  | longInteger (digits : Nat)
  | badNumber (text : String)
  | nullInVariable
  | badVariableName
  | noCompilerAt (path : String)
  | installFailed (version : String) (cause : Error)
  | noCompiler
  | notInstalled (text : String)
  | compilerFailed (report : CompilerReport)
  | compilation (complaint : String)
  | call (text : String)
  | infinitePrice
  | undefinedPrice
  | unreachable
  | noAccount
  | reverted (contract transaction : String)
  | argumentsUnreadable (path : String) (cause : Error)
  | argumentsMisshapen
deriving DecidableEq, Repr

namespace Error

def installHint : String :=
  "solc solidity compiler is not installed. Visit " ++
    "https://docs.soliditylang.org/en/latest/installing-solidity.html, " ++
    "or set SOLC_VERSION to let py-solc-x install one."

def message : Error → String
  | noField kind field => "'" ++ kind ++ "' object has no attribute '" ++ field ++ "'"
  | noItems kind => "'" ++ kind ++ "' object is not iterable"
  | unknownSetting name => "Settings.__init__() got an unexpected keyword argument '" ++ name ++ "'"
  | missingContract name => Text.quoted name
  | badJson e => e.message
  | badUtf8 f => f.message
  | file f => f.message
  | system text => text
  | badInteger text =>
    "invalid literal for int() with base 10: " ++ String.ofList ((Text.quoted text).toList.take 200)
  | longInteger digits =>
    "Exceeds the limit (4300 digits) for integer string conversion: value has " ++ toString digits ++
      " digits; use sys.set_int_max_str_digits() to increase the limit"
  | badNumber text => "could not convert string to float: " ++ Text.quoted text
  | nullInVariable => "embedded null byte"
  | badVariableName => "illegal environment variable name"
  | noCompilerAt path => "solc binary not found at " ++ path
  | installFailed version cause => "could not install solc " ++ version ++ ": " ++ cause.message
  | noCompiler => installHint
  | notInstalled text => text
  | compilerFailed report => report.text
  | compilation complaint => complaint
  | call text => text
  | infinitePrice => "cannot convert Infinity to integer"
  | undefinedPrice => "cannot convert NaN to integer"
  | unreachable => "could not connect to the chain endpoint"
  | noAccount => "node exposes no unlocked account; set PRIVATE_KEY"
  | reverted contract _ => contract ++ ": deployment transaction reverted"
  | argumentsUnreadable path cause =>
    "cannot read constructor args from " ++ path ++ ": " ++ cause.message
  | argumentsMisshapen => "constructor args must map contract names to argument lists"

end Error

end ContractBindings
