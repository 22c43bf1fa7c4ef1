import ContractBindings.Session

/-! # Deploying contracts

Contracts are deployed one after the other: each transaction is submitted, and its receipt is awaited
before the next one. With a private key the transaction is signed here, otherwise the node signs it. The
first failure ends the run.
-/

namespace ContractBindings

structure Deployer where
  account : Option String := none
  privateKey : Option String := none
  gas : Option Int := none
  gasPrice : Option Number := none
  chainId : Option Int := none
  receiptTimeout : Number := Settings.default.receiptTimeout
deriving DecidableEq, Repr

structure Task where
  name : String
  key : String
  args : List (Json CodePoints)
deriving DecidableEq, Repr

structure Deployed where
  name : String
  address : Json
  hash : String
deriving DecidableEq, Repr

namespace Deployment

open Session

def plan (artifacts : Artifacts) (args : Json CodePoints) : Except Error (List Task) :=
  let args := if args.isTruthy then args else .obj []
  artifacts.deployable.mapM fun (name, _) => do
    let given ← args.field? (.ofString name)
    return ⟨name, name, ← (given.getD (.arr [])).items?⟩

end Deployment

namespace Deployer

open Session

def ofSettings (s : Settings) : Deployer where
  account := s.account
  privateKey := s.privateKey
  gas := s.gas
  gasPrice := s.gasPrice
  chainId := s.chainId
  receiptTimeout := s.receiptTimeout

def key? (d : Deployer) : Option String := d.privateKey.filter (· != "")

/-- The address that transactions are sent from: that of the private key, the account, or the first
account of the node. -/
def sender (d : Deployer) (chain : Chain) : Session String :=
  match d.key?, d.account.filter (· != "") with
  | some key, _ => ask chain (.keyAccount key)
  | none, some account => ask chain (.checksumAddress account)
  | none, none => do
    let accounts : List String ← ask chain .accounts
    match accounts with
    | [] => throw .noAccount
    | account :: _ => return account

def params (d : Deployer) (chain : Chain) (sender : String) : Session TransactionParams := do
  let gasPrice : Option Int ←
    match d.gasPrice with
    | none => pure none
    | some price => some <$> ask chain (.toWei price)
  return { sender, gas := d.gas, gasPrice, chainId := d.chainId }

def submit (d : Deployer) (chain : Chain) (params : TransactionParams)
    (args : List (Json CodePoints)) : Session Wire :=
  match d.key? with
  | some key => do
    let nonce : Int ← ask chain (.transactionCount params.sender)
    ask chain (.construct args)
    let transaction : Transaction ← ask chain (.build { params with nonce := some nonce })
    let raw : List UInt8 ← ask chain (.sign transaction key)
    ask chain (.sendRaw raw)
  | none => do
    ask chain (.construct args)
    ask chain (.transact params)

def codeText : Json → Except Error String
  | .str s => .ok (if (Text.dropLead? ['0', 'x'] s.toList).isSome then s else "0x" ++ s)
  | v => .error (.noField v.kindName "startswith")

def setAddress (key : String) (address : Json) : Session Unit :=
  modify fun s =>
    match s.contracts.get? key with
    | none => s
    | some a => { s with contracts := s.contracts.insert key { a with address } }

def deploy (d : Deployer) (chain : Chain) (task : Task) : Session Deployed := do
  let some artifact := (← get).contracts.get? task.key | throw (.missingContract task.key)
  let code ← ofExcept (codeText artifact.bytecode)
  ask chain (.contract artifact.abi code)
  let sender ← d.sender chain
  let params ← d.params chain sender
  let hash ← d.submit chain params task.args
  log .info ("⏳ deploying " ++ task.name ++ ", tx " ++ hash.hex)
  let receipt : Receipt ← ask chain (.wait hash d.receiptTimeout)
  if receipt.isReverted then throw (.reverted task.name hash.hex)
  setAddress task.key receipt.address
  log .success (task.name ++ " deployed at " ++ receipt.address.display)
  return ⟨task.name, receipt.address, hash.hex⟩

/-- Deploy one contract of a run; a failure is logged under its name. -/
def deployLogged (d : Deployer) (chain : Chain) (task : Task) : Session Deployed := do
  try
    d.deploy chain task
  catch e =>
    log .error ("deployment of " ++ task.name ++ " failed: " ++ e.message)
    throw e

/-- Deploy contracts in order, if there are any and the chain can be reached. -/
def run (d : Deployer) (chain : Chain) (tasks : List Task) : Session (List Deployed) := do
  if tasks.isEmpty then return []
  let connected : Bool ← ask chain .isConnected
  if !connected then
    log .error Error.unreachable.message
    throw .unreachable
  tasks.mapM (d.deployLogged chain)

end Deployer

end ContractBindings
