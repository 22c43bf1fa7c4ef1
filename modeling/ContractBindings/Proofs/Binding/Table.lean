import ContractBindings.Binding.Hooks
import ContractBindings.Proofs.Keyed
import ContractBindings.Proofs.Outcome

/-!
# The table of the client module

Artifacts with distinct names are rendered without fail: each binding has its
artifact in the table, and the text of the module is the note, the table and
what follows from the bindings.
-/

namespace ContractBindings

theorem linesText_nil : linesText [] = "" := rfl

theorem linesText_append (xs ys : List String) :
    linesText (xs ++ ys) = linesText xs ++ linesText ys := by
  rw [linesText, linesText, linesText, List.map_append, String.join_append]

theorem linesText_cons (x : String) (xs : List String) :
    linesText (x :: xs) = x ++ "\n" ++ linesText xs := by
  rw [linesText, linesText, List.map_cons, String.join_cons]

namespace Client

def tableEntry : String × Artifact → String × Json
  | (name, a) => (name, .obj [("abi", a.abi), ("bin", a.bytecode), ("address", a.address)])

theorem names_ofArtifacts (as : Artifacts) :
    (Binding.ofArtifacts as).map (·.name) = as.deployable.keys := by
  rw [Binding.ofArtifacts, List.map_map]
  rfl

theorem table_ofArtifacts {as : Artifacts} (h : as.keys.Nodup) :
    table as (Binding.ofArtifacts as) = .ok (as.deployable.map tableEntry) := by
  unfold table Binding.ofArtifacts
  rw [mapM_eq_ok_iff, List.forall₂_map_left_iff, List.forall₂_map_right_iff, List.forall₂_same]
  rintro ⟨name, a⟩ hm
  dsimp only
  rw [Keyed.get?_of_mem h (List.mem_of_mem_filter hm)]
  rfl

def afterTable (bindings : List Binding) : String :=
  linesText (bindings.flatMap classLines) ++
    ("\n" ++ "export \x7b " ++ exports bindings ++ " \x7d;" ++ "\n")

def classBody (b : Binding) : String :=
  linesText (["    constructor(contract) \x7b", "        this.contract = contract;", "    \x7d"] ++
    b.members.flatMap methodLines ++ ["\x7d"])

theorem linesText_classLines (b : Binding) :
    linesText (classLines b) = "\nclass " ++ b.name ++ " \x7b\n" ++ classBody b := by
  have hsplit : classLines b = "" :: ("class " ++ b.name ++ " \x7b") ::
      (["    constructor(contract) \x7b", "        this.contract = contract;", "    \x7d"] ++
        b.members.flatMap methodLines ++ ["\x7d"]) := rfl
  have hhead : "\nclass " = "\n" ++ "class " := by decide
  have htail : " \x7b\n" = " \x7b" ++ "\n" := by decide
  rw [hsplit, linesText_cons, linesText_cons, classBody, hhead, htail]
  simp only [String.empty_append, String.append_assoc]

theorem linesText_flatMap (f : Binding → List String) (bs : List Binding) :
    linesText (bs.flatMap f) = String.join (bs.map fun b => linesText (f b)) := by
  induction bs with
  | nil => rfl
  | cons b bs ih => rw [List.flatMap_cons, linesText_append, ih, List.map_cons, String.join_cons]

theorem afterTable_eq (bindings : List Binding) :
    afterTable bindings =
      String.join (bindings.map fun b => "\nclass " ++ b.name ++ " \x7b\n" ++ classBody b) ++
      "\nexport \x7b " ++ ", ".intercalate ("contracts" :: bindings.map (·.name)) ++ " \x7d;\n" := by
  have hhead : "\nexport \x7b " = "\n" ++ "export \x7b " := by decide
  have htail : " \x7d;\n" = " \x7d;" ++ "\n" := by decide
  rw [afterTable, linesText_flatMap, exports, hhead, htail]
  simp only [linesText_classLines, String.append_assoc]

theorem linesText_lines (table : List (String × Json)) (bindings : List Binding) (source : String) :
    linesText (lines table bindings source) =
      generatedNote source ++ "\n" ++ "const contracts = " ++ (Json.obj table).pretty ++ ";" ++ "\n" ++
        afterTable bindings := by
  simp only [lines, linesText_append, linesText_cons, afterTable, List.cons_append, List.nil_append,
    linesText_nil, String.append_assoc, String.empty_append, String.append_empty]

theorem render_ofArtifacts {as : Artifacts} (h : as.keys.Nodup) (source : String) :
    render as (Binding.ofArtifacts as) source = .ok (generatedNote source ++ "\n" ++
      "const contracts = " ++ (Json.obj (as.deployable.map tableEntry)).pretty ++ ";" ++ "\n" ++
        afterTable (Binding.ofArtifacts as)) := by
  unfold render
  rw [table_ofArtifacts h, ← linesText_lines]
  rfl

end Client

/-- What stands in front of the import of the client module: the note, and the imports of others. -/
def Hooks.leadLines (source : String) (contexts : Contexts) : List String := [
  generatedNote source,
  "import \x7b useContext, useEffect, useState \x7d from 'react';",
  "import \x7b ethers \x7d from 'ethers';",
  "import \x7b WalletContext \x7d from '" ++ contexts.wallet ++ "';",
  "import \x7b DappContext \x7d from '" ++ contexts.dapp ++ "';"]

def Hooks.restLines (bindings : List Binding) : List String :=
  commonLines ++ bindings.flatMap fun b => b.members.flatMap (hookLines b)

theorem Hooks.render_eq (bindings : List Binding) (source clientModule : String)
    (contexts : Contexts) :
    render bindings source clientModule contexts = linesText (leadLines source contexts) ++
      "import \x7b " ++ ", ".intercalate ("contracts" :: bindings.map (·.name)) ++
        " \x7d from '" ++ clientModule ++ "';\n" ++ linesText (restLines bindings) := by
  have hlines : lines bindings source clientModule contexts = leadLines source contexts ++
      ("import \x7b " ++ Client.exports bindings ++ " \x7d from '" ++ clientModule ++ "';") ::
        restLines bindings := by
    simp [lines, importLines, leadLines, restLines]
  have htail : "';\n" = "';" ++ "\n" := by decide
  rw [render, hlines, linesText_append, linesText_cons _ (restLines bindings), Client.exports, htail]
  simp only [String.append_assoc]

end ContractBindings
