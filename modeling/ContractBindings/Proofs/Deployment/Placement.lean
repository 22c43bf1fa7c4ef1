import ContractBindings.Proofs.Deployment.Plan
import ContractBindings.Proofs.Deployment.Sequence
import ContractBindings.Proofs.Keyed
import ContractBindings.Proofs.Text.Split

/-!
# Where contracts are placed

A run that deploys all contracts of a list leaves the list as it was, but for
the addresses: each contract has the address in the receipt of the transaction
that was sent for it (`Placement`). The invariant of the run is that the
contracts in front are placed and those behind are untouched.
-/

namespace ContractBindings

def IsCodeOf (code bytecode : String) : Prop :=
  (['0', 'x'] <+: bytecode.toList ∧ code = bytecode) ∨
    (¬ ['0', 'x'] <+: bytecode.toList ∧ code = "0x" ++ bytecode)

theorem isCodeOf_iff {code bytecode : String} :
    IsCodeOf code bytecode ↔
      code = if (Text.dropLead? ['0', 'x'] bytecode.toList).isSome then bytecode else "0x" ++ bytecode := by
  unfold IsCodeOf
  rw [← Text.isSome_dropLead?_iff]
  cases (Text.dropLead? ['0', 'x'] bytecode.toList).isSome <;> simp

theorem Deployer.codeText_eq_ok {v : Json} {code : String} (h : codeText v = .ok code) :
    ∃ bytecode, v = .str bytecode ∧ IsCodeOf code bytecode := by
  cases v with
  | str s => cases h; exact ⟨s, rfl, isCodeOf_iff.mpr rfl⟩
  | _ => cases h

def Artifacts.withoutAddresses (as : Artifacts) : Artifacts :=
  as.map fun (name, a) => (name, { a with address := .null })

/-- A contract that was deployed: the artifact with its address, the arguments of its constructor, the
calls of its deployment and the hash of its transaction. -/
structure Placement where
  name : String
  artifact : Artifact
  args : List (Json CodePoints)
  calls : List Exchange
  hash : Wire

namespace Placement

def entry (p : Placement) : String × Artifact := (p.name, p.artifact)

def result (p : Placement) : Deployed := ⟨p.name, p.artifact.address, p.hash.hex⟩

def IsPlacedBy (d : Deployer) (p : Placement) : Prop :=
  ∃ bytecode code sends, ∃ receipt : Receipt,
    p.artifact.bytecode = .str bytecode ∧ IsCodeOf code bytecode ∧
      Deployer.SendsFor p.artifact.abi code p.args p.hash sends ∧
      p.calls = sends ++ [⟨.wait p.hash d.receiptTimeout, .ok receipt⟩] ∧
      receipt.isReverted = false ∧ p.artifact.address = receipt.address

theorem IsPlacedBy.countP_eq_one {d : Deployer} {p : Placement} (h : p.IsPlacedBy d) :
    p.calls.countP (·.call.isSubmission) = 1 := by
  obtain ⟨_, _, sends, receipt, -, -, hs, hcalls, -⟩ := h
  obtain ⟨q, x, rfl, hq, hx⟩ := hs.split
  rw [hcalls, List.countP_append, List.countP_append, hq.countP, List.countP_singleton,
    (Exchange.isAnswered_of_submitted hx).2]
  rfl

end Placement

namespace Deployer

variable {d : Deployer}

theorem withAddress_append {done todo : Artifacts} {key : String} {a : Artifact}
    (h : key ∉ done.keys) (address : Json) :
    Artifacts.withAddress (done ++ (key, a) :: todo) key address =
      done ++ (key, { a with address }) :: todo := by
  have hget : Keyed.get? (done ++ (key, a) :: todo) key = some a := by
    rw [Keyed.get?_append_of_not_mem _ h, Keyed.get?, if_pos rfl]
  unfold Artifacts.withAddress
  rw [hget]
  dsimp only
  rw [Keyed.insert_append_of_not_mem _ _ h, Keyed.insert, if_pos rfl]

/-- The contracts behind those that are placed already are placed one after the other. -/
theorem attempts_place {args : Json CodePoints} : ∀ {todo done as' : Artifacts} {tasks : List Task}
    {attempts : List Attempt} {results : List Deployed},
    Attempts d (done ++ todo) tasks attempts (.ok results) as' → (Keyed.keys (done ++ todo)).Nodup →
      List.Forall₂ (Deployment.IsTaskFor args) todo tasks →
        ∃ placed : List Placement, as' = done ++ placed.map (·.entry) ∧
          Artifacts.withoutAddresses (placed.map (·.entry)) = Artifacts.withoutAddresses todo ∧
          attempts.map (·.calls) = placed.map (·.calls) ∧ results = placed.map (·.result) ∧
          ∀ p ∈ placed, p.IsPlacedBy d ∧ argumentsFor args p.name = .ok p.args
  | [], done, as', tasks, attempts, results, h, hn, ht => by
    cases ht
    generalize hr : Except.ok results = r at h
    cases h
    cases hr
    exact ⟨[], by simp, rfl, rfl, rfl, by simp⟩
  | (key, a) :: todo, done, as', tasks, attempts, results, h, hn, ht => by
    obtain ⟨task, tasks, ⟨hname, hkey, hargs⟩, htail, rfl⟩ := List.forall₂_cons_left_iff.mp ht
    generalize hr : Except.ok results = r at h
    cases h with
    | failed h => cases hr
    | @next _ _ _ _ es lines x attempts r h rest =>
      obtain ⟨results', rfl, rfl⟩ : ∃ results', r = .ok results' ∧ results = x :: results' := by
        cases r with
        | error e => cases hr
        | ok results' => cases hr; exact ⟨results', rfl, rfl⟩
      have hkeys : key ∉ done.keys := by
        rw [Keyed.keys_append, List.nodup_append] at hn
        intro hm
        exact hn.2.2 key hm key (by simp) rfl
      -- the task finds its own artifact, and its address is the only thing that changes
      rw [hkey, Keyed.get?_append_of_not_mem _ hkeys, Keyed.get?, if_pos rfl] at h
      rw [hkey, withAddress_append hkeys, List.append_cons] at rest
      cases h with
      | @deployed sends artifact code hash receipt hf hc hsend hrev =>
        cases hf
        obtain ⟨placed, rfl, hstrip, hcalls, rfl, hplaced⟩ := attempts_place rest (by simpa using hn) htail
        obtain ⟨bytecode, hb, hcode⟩ := codeText_eq_ok hc
        let p : Placement := ⟨key, { a with address := receipt.address }, task.args,
          sends ++ [⟨.wait hash d.receiptTimeout, .ok receipt⟩], hash⟩
        refine ⟨p :: placed, by simp [p, Placement.entry], ?_, ?_, ?_, ?_⟩
        · exact congrArg (List.cons (key, { a with address := .null })) hstrip
        · exact congrArg (List.cons _) hcalls
        · rw [hname]; rfl
        · intro q hq
          rcases List.mem_cons.mp hq with rfl | hq
          · exact ⟨⟨bytecode, code, sends, receipt, hb, hcode, hsend, rfl, hrev, rfl⟩, hargs⟩
          · exact hplaced q hq

end Deployer

end ContractBindings
