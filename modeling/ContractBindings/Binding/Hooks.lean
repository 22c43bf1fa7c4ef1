import ContractBindings.Binding.Client

/-! # The hooks module

One hook per method of the client module, which makes the call when it is mounted and shows how the
call stands.
-/

namespace ContractBindings.Hooks

structure Contexts where
  wallet : String := "../context/WalletContext"
  dapp : String := "../context/DappContext"
deriving DecidableEq, Repr

def importLines (bindings : List Binding) (clientModule : String) (contexts : Contexts) :
    List String := [
  "import \x7b useContext, useEffect, useState \x7d from 'react';",
  "import \x7b ethers \x7d from 'ethers';",
  "import \x7b WalletContext \x7d from '" ++ contexts.wallet ++ "';",
  "import \x7b DappContext \x7d from '" ++ contexts.dapp ++ "';",
  "import \x7b " ++ Client.exports bindings ++ " \x7d from '" ++ clientModule ++ "';"]

def commonLines : List String := [
  "",
  "const LOADING = \x7b status: 'loading', data: undefined, error: undefined \x7d;",
  "",
  "function bind(name, Binding, signer, addresses) \x7b",
  "    const address = (addresses && addresses[name]) || contracts[name].address;",
  "    return new Binding(new ethers.Contract(address, contracts[name].abi, signer));",
  "\x7d"]

def dependencies (m : Member) : String :=
  ", ".intercalate ("signer" :: "addresses" :: m.params)

def hookLines (b : Binding) (m : Member) : List String := [
  "",
  "export function " ++ m.hookName ++ "(" ++ m.args ++ ") \x7b",
  "    const \x7b signer \x7d = useContext(WalletContext);",
  "    const \x7b addresses \x7d = useContext(DappContext);",
  "    const [result, setResult] = useState(LOADING);",
  "    useEffect(() => \x7b",
  "        let active = true;",
  "        setResult(LOADING);",
  "        bind('" ++ b.name ++ "', " ++ b.name ++ ", signer, addresses)." ++ m.method ++ "(" ++ m.args ++ ")",
  "            .then((data) => \x7b if (active) setResult(\x7b status: 'success', data, error: undefined \x7d); \x7d)",
  "            .catch((error) => \x7b if (active) setResult(\x7b status: 'error', data: undefined, error \x7d); \x7d);",
  "        return () => \x7b active = false; \x7d;",
  "    \x7d, [" ++ dependencies m ++ "]);",
  "    return result;",
  "\x7d"]

def lines (bindings : List Binding) (source clientModule : String) (contexts : Contexts) :
    List String :=
  generatedNote source :: importLines bindings clientModule contexts ++ commonLines ++
    bindings.flatMap fun b => b.members.flatMap (hookLines b)

def render (bindings : List Binding) (source clientModule : String) (contexts : Contexts) : String :=
  linesText (lines bindings source clientModule contexts)

end ContractBindings.Hooks
