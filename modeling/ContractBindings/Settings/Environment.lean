import ContractBindings.Decimal.Reader
import ContractBindings.Settings.Basic
import ContractBindings.Settings.EnvFile

/-! # Settings from the environment

Variables that are set keep their values, also empty ones; a file adds those that are not set.
-/

namespace ContractBindings

abbrev Environment := Keyed String

namespace Environment

def set (env : Environment) (name value : String) : Except Error Environment :=
  if Text.hasNull name || Text.hasNull value then .error .nullInVariable
  else if name.toList.contains '=' then .error .badVariableName
  else .ok (env.insert name value)

/-- Set the variables that are not set yet, up to the first one that cannot be set. -/
def complete : Environment → Keyed (Option String) → Environment × Except Error Unit
  | env, [] => (env, .ok ())
  | env, (_, none) :: vs => complete env vs
  | env, (name, some value) :: vs =>
    if (env.get? name).isSome then complete env vs
    else
      match env.set name value with
      | .ok env => complete env vs
      | .error e => (env, .error e)

def ignoresFiles (env : Environment) : Bool :=
  match env.get? "PYTHON_DOTENV_DISABLED" with
  | none => false
  | some v =>
    let word := v.toList.map fun c => if c = 'ſ' then 's' else c.toLower
    ["1", "true", "t", "yes", "y"].contains (String.ofList word)

/-! ## Values of settings -/

def text? (env : Environment) (name : String) : Option String :=
  match env.get? name with
  | some "" => none
  | v => v

def integer? (env : Environment) (name : String) : Except Error (Option Int) :=
  match env.text? name with
  | none => .ok none
  | some v =>
    match Decimal.readInteger v with
    | .ok n => .ok (some n)
    | .error .malformed => .error (.badInteger v)
    | .error (.tooLong digits) => .error (.longInteger digits)

def double? (env : Environment) (name : String) : Except Error (Option Binary64) :=
  match env.text? name with
  | none => .ok none
  | some v =>
    match Decimal.readBinary64? v with
    | some x => .ok (some x)
    | none => .error (.badNumber v)

def isYes (v : String) : Bool :=
  ["1", "true", "yes", "on"].contains (String.ofList ((Text.strip v).toList.map Char.toLower))

/-- The items of a list with commas between them, without blanks around them and without empty ones. -/
def items (v : String) : List String :=
  ((Text.pieces ',' v.toList).map fun p => String.ofList (Text.stripWhile Text.isBlank p)).filter
    (· != "")

end Environment

namespace Settings

/-- The settings that the variables give; defaults stand for those that are empty or not set. -/
def ofEnvironment (env : Environment) : Except Error Settings := do
  let chainId ← env.integer? "CHAIN_ID"
  let gas ← env.integer? "GAS"
  let gasPrice ← env.double? "GAS_PRICE_GWEI"
  let timeout ← env.double? "RECEIPT_TIMEOUT"
  return {
    rpcUrl := (env.text? "RPC_URL").getD default.rpcUrl
    privateKey := env.text? "PRIVATE_KEY"
    account := env.text? "ACCOUNT_ADDRESS"
    chainId
    gas
    gasPrice := gasPrice.map .double
    receiptTimeout :=
      match timeout with
      | none => default.receiptTimeout
      | some t => if t.isZero then default.receiptTimeout else .double t
    compilerVersion := env.text? "SOLC_VERSION"
    compilerPath := env.text? "SOLC_BINARY"
    remappings := Environment.items ((env.get? "IMPORT_REMAPPINGS").getD "")
    optimize := Environment.isYes ((env.get? "SOLC_OPTIMIZE").getD "")
    contexts := {
      wallet := (env.text? "WALLET_CONTEXT_MODULE").getD default.contexts.wallet
      dapp := (env.text? "DAPP_CONTEXT_MODULE").getD default.contexts.dapp } }

end Settings

end ContractBindings
