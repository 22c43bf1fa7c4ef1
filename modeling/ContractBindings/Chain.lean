import ContractBindings.Error
import ContractBindings.Number

/-! # The chain

The calls that a deployment makes on a node of a chain, and what a node answers. A node is any function
that answers a call from the calls before it, so nothing is assumed about chains.
-/

namespace ContractBindings

/-- A value as a node sends it: bytes, or a value of a text format. -/
inductive Wire where
  | bytes (bytes : List UInt8)
  | json (v : Json)
deriving DecidableEq, Repr

def Wire.hex (w : Wire) : String :=
  let text :=
    match w with
    | .bytes bs => Text.hexBytes bs
    | .json (.double x) => String.ofList (Decimal.hexText x)
    | .json v => v.display
  if (Text.dropLead? ['0', 'x'] text.toList).isSome then text else "0x" ++ text

structure TransactionParams where
  sender : String
  gas : Option Int := none
  gasPrice : Option Int := none
  chainId : Option Int := none
  nonce : Option Int := none
deriving DecidableEq, Repr

structure Transaction where
  params : TransactionParams
  data : String
deriving DecidableEq, Repr

structure Receipt where
  status : Json
  address : Json
deriving DecidableEq, Repr

def Receipt.isReverted (r : Receipt) : Bool := r.status.isZero

inductive Call where
  | isConnected
  | contract (abi : Json) (bytecode : String)
  | keyAccount (key : String)
  | checksumAddress (address : String)
  | accounts
  | toWei (price : Number)
  | transactionCount (address : String)
  | construct (args : List (Json CodePoints))
  | build (params : TransactionParams)
  | sign (transaction : Transaction) (key : String)
  | sendRaw (raw : List UInt8)
  | transact (params : TransactionParams)
  | wait (hash : Wire) (timeout : Number)
deriving DecidableEq, Repr

namespace Call

abbrev Reply : Call → Type
  | isConnected => Bool
  | contract .. => Unit
  | keyAccount _ => String
  | checksumAddress _ => String
  | accounts => List String
  | toWei _ => Int
  | transactionCount _ => Int
  | construct _ => Unit
  | build _ => Transaction
  | sign .. => List UInt8
  | sendRaw _ => Wire
  | transact _ => Wire
  | wait .. => Receipt

end Call

structure Exchange where
  call : Call
  outcome : Except Error call.Reply

/-- A node: how it answers a call after the calls before it. -/
abbrev Chain := List Exchange → (c : Call) → Except Error c.Reply

end ContractBindings
