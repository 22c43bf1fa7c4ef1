import ContractBindings.Binding.Hooks
import ContractBindings.Number

/-! # Settings of a run -/

namespace ContractBindings

/-- What a run needs to know: the chain and the account to deploy from, the compiler, and the modules
that the hooks take their contexts from. -/
structure Settings where
  rpcUrl : String := "http://127.0.0.1:8545"
  privateKey : Option String := none
  account : Option String := none
  chainId : Option Int := none
  gas : Option Int := none
  gasPrice : Option Number := none
  receiptTimeout : Number := .double (Binary64.ofDecimal false 120 0)
  compilerVersion : Option String := none
  compilerPath : Option String := none
  remappings : List String := []
  optimize : Bool := false
  contexts : Hooks.Contexts := {}
deriving DecidableEq, Repr

/-- Values that take the place of those in the settings; what is absent changes nothing. -/
structure Overrides where
  rpcUrl : Option String := none
  privateKey : Option String := none
  account : Option String := none
  chainId : Option Int := none
  gas : Option Int := none
  gasPrice : Option Number := none
  receiptTimeout : Option Number := none
  compilerVersion : Option String := none
  compilerPath : Option String := none
  remappings : Option (List String) := none
  optimize : Option Bool := none
  walletContext : Option String := none
  dappContext : Option String := none
  /-- The first value for a setting that does not exist. -/
  unknown : Option String := none

namespace Settings

def default : Settings := {}

def override (s : Settings) (o : Overrides) : Except Error Settings :=
  match o.unknown with
  | some name => .error (.unknownSetting name)
  | none => .ok {
      rpcUrl := o.rpcUrl.getD s.rpcUrl
      privateKey := o.privateKey <|> s.privateKey
      account := o.account <|> s.account
      chainId := o.chainId <|> s.chainId
      gas := o.gas <|> s.gas
      gasPrice := o.gasPrice <|> s.gasPrice
      receiptTimeout := o.receiptTimeout.getD s.receiptTimeout
      compilerVersion := o.compilerVersion <|> s.compilerVersion
      compilerPath := o.compilerPath <|> s.compilerPath
      remappings := o.remappings.getD s.remappings
      optimize := o.optimize.getD s.optimize
      contexts := ⟨o.walletContext.getD s.contexts.wallet, o.dappContext.getD s.contexts.dapp⟩ }

end Settings

end ContractBindings
