import ContractBindings.Chain

/-! # A scripted node

A node that follows a script, to try out a deployment without a chain. Transactions are numbered from
one, and the number of the last one that was sent makes up its hash and its receipt.
-/

namespace ContractBindings.Rehearsal

inductive HashForm where
  | bytes
  | digits
  | markedDigits
deriving DecidableEq, Repr

/-- What a node is to answer. A call fails if the script has a text for its name and for how many calls
of that name there are then. -/
structure NodeScript where
  connected : Bool := true
  accounts : List String := ["0x0000000000000000000000000000000000000001"]
  nonce : Int := 0
  hash : HashForm := .bytes
  failures : List ((String × Nat) × String) := []
  statuses : List (Nat × Json) := []
  addresses : List (Nat × Json) := []

def callName : Call → String
  | .isConnected => "is_connected"
  | .contract .. => "contract"
  | .keyAccount _ => "from_key"
  | .checksumAddress _ => "to_checksum_address"
  | .accounts => "accounts"
  | .toWei _ => "to_wei"
  | .transactionCount _ => "get_transaction_count"
  | .construct _ => "constructor"
  | .build _ => "build_transaction"
  | .sign .. => "sign_transaction"
  | .sendRaw _ => "send_raw_transaction"
  | .transact _ => "transact"
  | .wait .. => "wait"

def hasSent (e : Exchange) : Bool :=
  match e with
  | ⟨.sendRaw _, .ok _⟩ => true
  | ⟨.transact _, .ok _⟩ => true
  | _ => false

def sentCount (history : List Exchange) : Nat := history.countP hasSent

namespace NodeScript

def hashOf (s : NodeScript) (n : Nat) : Wire :=
  let bytes := List.replicate 32 (UInt8.ofNat n)
  match s.hash with
  | .bytes => .bytes bytes
  | .digits => .json (.str (Text.hexBytes bytes))
  | .markedDigits => .json (.str ("0x" ++ Text.hexBytes bytes))

def receiptOf (s : NodeScript) (n : Nat) : Receipt where
  status := (s.statuses.lookup n).getD (.int 1)
  address := (s.addresses.lookup n).getD (.str ("0x" ++ String.ofList (Text.hexDigits 40 n)))

/-- A thousand million times a number, without what lies behind the point. -/
def inWei : Number → Except Error Int
  | .int n => .ok (n * Nat.pow 10 9)
  | .double x =>
    if x.isNaN then .error .undefinedPrice
    else if x.isInfinite then .error .infinitePrice
    else if x.isZero then .ok 0
    else
      let s := Decimal.shortest x
      let e := s.exponent + 9
      let n : Int := if 0 ≤ e then s.digits * Nat.pow 10 e.toNat else s.digits / Nat.pow 10 (-e).toNat
      .ok (if x.isNegative then -n else n)

def reply (s : NodeScript) (sent : Nat) : (c : Call) → Except Error c.Reply
  | .isConnected => .ok s.connected
  | .contract .. => .ok ()
  | .keyAccount _ => .ok "0x00000000000000000000000000000000000000AA"
  | .checksumAddress address => .ok ("checksum:" ++ address)
  | .accounts => .ok s.accounts
  | .toWei price => inWei price
  | .transactionCount _ => .ok (s.nonce + sent)
  | .construct _ => .ok ()
  | .build params => .ok ⟨params, "tx"⟩
  | .sign .. => .ok (Text.Utf8.encode "raw")
  | .sendRaw _ => .ok (s.hashOf (sent + 1))
  | .transact _ => .ok (s.hashOf (sent + 1))
  | .wait .. => .ok (s.receiptOf sent)

def node (s : NodeScript) : Chain := fun history call =>
  let name := callName call
  let count := history.countP (fun e => callName e.call == name) + 1
  match s.failures.lookup (name, count) with
  | some text => .error (.call text)
  | none => s.reply (sentCount history) call

end NodeScript

end ContractBindings.Rehearsal
