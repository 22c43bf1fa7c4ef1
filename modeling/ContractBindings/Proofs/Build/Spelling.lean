import ContractBindings.Proofs.Build.TwoOutputs
import ContractBindings.Proofs.Json.RoundTrip

/-!
# The two spellings of an ABI

Old compilers put the ABI of a contract into their output as text, and newer
ones as a list. Both are read as the same ABI, so the contracts that are
extracted, the warnings, and all that a build does with them are the same.
-/

namespace ContractBindings

namespace Extraction

/-- A contract in two outputs of a compiler: the same in both, or with its ABI as a list in the one and
as the text of this list in the other. -/
inductive Respelled : String × Json → String × Json → Prop
  | same (entry : String × Json) : Respelled entry entry
  | text (key : String) {fields : List (String × Json)} {items : List Json}
      (habi : Keyed.get? fields "abi" = some (.arr items))
      (hexact : (Json.arr items).isExact = true) :
      Respelled (key, .obj fields)
        (key, .obj (Keyed.insert fields "abi" (.str (Json.arr items).text)))

theorem text_arr_ne_empty (items : List Json) : (Json.arr items).text ≠ "" := by
  intro h
  have hchars := congrArg String.toList h
  cases items <;> simp [Json.text, Json.chars] at hchars

theorem loadAbi_arr (items : List Json) : loadAbi (.arr items) = .ok (.arr items) := by
  cases items <;> rfl

theorem loadAbi_text {items : List Json} (h : (Json.arr items).isExact = true) :
    loadAbi (.str (Json.arr items).text) = .ok (.arr items) := by
  unfold loadAbi
  split
  · next he => exact absurd (Json.str.inj he) (text_arr_ne_empty items)
  · next s hs =>
    cases hs
    rw [Json.read_text h]
    rfl
  · next hno => exact absurd rfl (hno _)

theorem loadContract_congr (key : String) {contract contract' : Json}
    (habi : (contract'.field "abi" >>= loadAbi) = (contract.field "abi" >>= loadAbi))
    (hbin : contract'.field? "bin" = contract.field? "bin") :
    loadContract key contract' = loadContract key contract := by
  unfold loadContract
  simp only [← bind_assoc, habi, hbin]

/-- A respelled contract has the same key and loads as the same artifact. -/
theorem loadContract_respelled {entry entry' : String × Json} (h : Respelled entry entry') :
    entry'.1 = entry.1 ∧ loadContract entry'.1 entry'.2 = loadContract entry.1 entry.2 := by
  cases h with
  | same => exact ⟨rfl, rfl⟩
  | @text key fields items habi hexact =>
    refine ⟨rfl, ?_⟩
    apply loadContract_congr
    · have hold : (Json.obj fields).field "abi" = .ok (.arr items) := by
        simp [Json.field, Json.field?, habi]
      have hnew : (Json.obj (Keyed.insert fields "abi" (.str (Json.arr items).text))).field "abi" =
          .ok (.str (Json.arr items).text) := by
        simp [Json.field, Json.field?, Keyed.get?_insert_self]
      rw [hold, hnew, except_ok_bind, except_ok_bind, loadAbi_arr, loadAbi_text hexact]
    · simp [Json.field?, Keyed.get?_insert_of_ne]

theorem addContract_respelled {entry entry' : String × Json} (h : Respelled entry entry')
    (found : Artifacts) :
    addContract found entry'.1 entry'.2 = addContract found entry.1 entry.2 := by
  obtain ⟨hkey, hload⟩ := loadContract_respelled h
  rw [hkey] at hload ⊢
  unfold addContract
  simp only [hload]

theorem foldlM_respelled {contracts contracts' : List (String × Json)}
    (h : List.Forall₂ Respelled contracts contracts') : ∀ found : Artifacts,
    contracts'.foldlM (fun found (key, contract) => addContract found key contract) found =
      contracts.foldlM (fun found (key, contract) => addContract found key contract) found := by
  induction h with
  | nil => exact fun _ => rfl
  | cons he _ ih =>
    intro found
    simp only [List.foldlM_cons, addContract_respelled he, ih]

end Extraction

namespace Build

open Extraction Session

variable {combined combined' : Json} {contracts contracts' : List (String × Json)}

/-- **The spelling of ABIs does not matter.** From two outputs in which contracts are respelled the same
contracts are extracted, with the same warnings and errors; and a build on the one goes as it goes on
the other, and leaves the same but for the output itself. -/
theorem spelling_irrelevant (hold : combined.field "contracts" = .ok (.obj contracts))
    (hnew : combined'.field "contracts" = .ok (.obj contracts'))
    (hspell : List.Forall₂ Respelled contracts contracts') :
    Extraction.run combined' = Extraction.run combined ∧
      ∀ output output', IsJsonFile output combined → IsJsonFile output' combined' →
        BuildAlike output output' := by
  have hsame : Extraction.run combined' = Extraction.run combined := by
    rw [run_of_contracts hold, run_of_contracts hnew, foldlM_respelled hspell]
  refine ⟨hsame, ?_⟩
  intro output output' hfile hfile'
  refine buildAlike_of_sameSelection ⟨hfile, hfile', ?_⟩
  rw [hsame]
  exact (parallel_refl _).mono fun _ _ he => by rw [he]

/-! One contract with an ABI of one entry. -/

def markedAbi : Json := .arr [.obj [("name", .str "deployable")]]

def vaultContracts (abi : Json) : List (String × Json) := [("Vault.sol:Vault", .obj [("abi", abi)])]

def newOutput : String :=
  "\x7b\"contracts\": \x7b\"Vault.sol:Vault\": \x7b\"abi\": [\x7b\"name\": \"deployable\"\x7d]\x7d\x7d\x7d"

def oldOutput : String :=
  "\x7b\"contracts\": \x7b\"Vault.sol:Vault\": \x7b\"abi\": " ++
    "\"[\x7b\\\"name\\\": \\\"deployable\\\"\x7d]\"\x7d\x7d\x7d"

theorem isJsonFile_newOutput : IsJsonFile (Text.Utf8.encode newOutput)
    (.obj [("contracts", .obj (vaultContracts markedAbi))]) :=
  ⟨newOutput.toList, by decide +kernel, by decide +kernel⟩

theorem spelling_irrelevant_vault :
    List.Forall₂ Respelled (vaultContracts markedAbi) (vaultContracts (.str markedAbi.text)) ∧
      BuildAlike (Text.Utf8.encode newOutput) (Text.Utf8.encode oldOutput) := by
  have hspell : List.Forall₂ Respelled (vaultContracts markedAbi)
      (vaultContracts (.str markedAbi.text)) :=
    .cons (.text _ (by rfl) (by decide)) .nil
  have hfile' : IsJsonFile (Text.Utf8.encode oldOutput)
      (.obj [("contracts", .obj (vaultContracts (.str markedAbi.text)))]) :=
    ⟨oldOutput.toList, by decide +kernel, by decide +kernel⟩
  exact ⟨hspell, (spelling_irrelevant (by rfl) (by rfl) hspell).2 _ _ isJsonFile_newOutput hfile'⟩

end Build

end ContractBindings
