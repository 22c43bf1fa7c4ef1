import ContractBindings.Proofs.Binding.Restore
import ContractBindings.Proofs.Build.Spelling

/-!
# Contracts that are not marked

Contracts without the mark have no part in what is planned and written. One
that is put into the output of the compiler changes nothing that a build does,
unless it takes the name of another one.
-/

namespace ContractBindings

structure UsedAlike (as bs : Artifacts) : Prop where
  plan : ∀ args, Deployment.plan as args = Deployment.plan bs args
  artifacts : ∀ name ∈ bs.keys, as.get? name = bs.get? name
  bindings : Binding.ofArtifacts as = Binding.ofArtifacts bs
  client : ∀ source, Client.render as (Binding.ofArtifacts as) source =
    Client.render bs (Binding.ofArtifacts bs) source
  hooks : ∀ source clientModule contexts,
    Hooks.render (Binding.ofArtifacts as) source clientModule contexts =
      Hooks.render (Binding.ofArtifacts bs) source clientModule contexts

theorem usedAlike_deployable {as : Artifacts} (h : as.keys.Nodup) : UsedAlike as as.deployable := by
  have hsame := Build.deployable_deployable as
  have hkeys : as.deployable.keys.Nodup := Keyed.nodup_keys_filter h (·.2.deployable)
  have hbindings : Binding.ofArtifacts as = Binding.ofArtifacts as.deployable := by
    rw [Binding.ofArtifacts, Binding.ofArtifacts, hsame]
  refine ⟨fun args => ?_, fun name hname => ?_, hbindings, fun source => ?_, fun _ _ _ => ?_⟩
  · rw [Deployment.plan, Deployment.plan, hsame]
  · obtain ⟨q, hq, rfl⟩ := List.mem_map.mp hname
    rw [Keyed.get?_of_mem h (List.mem_of_mem_filter hq), Keyed.get?_of_mem hkeys hq]
  · rw [Client.render_ofArtifacts h, Client.render_ofArtifacts hkeys, hsame, hbindings]
  · rw [hbindings]

namespace Extraction

/-- A contract that is no marked one, and whose name no other contract has. -/
structure IsUntagged (others : List (String × Json)) (key : String) (contract : Json) : Prop where
  loads : ∃ a, loadContract key contract = .ok a ∧ ∀ e ∈ a.entries, e.name ≠ Artifact.marker
  name : ∀ other ∈ others, (splitKey other.1).2 ≠ (splitKey key).2

structure SameBut (name : String) (found found' : Artifacts) : Prop where
  rest : Keyed.without found' name = found
  unmarked : ∀ a, (name, a) ∈ found' → a.deployable = false

variable {name key : String} {contract : Json} {found found' : Artifacts}

theorem deployable_eq_false {a : Artifact} (h : loadContract key contract = .ok a)
    (hentries : ∀ e ∈ a.entries, e.name ≠ Artifact.marker) : a.deployable = false := by
  unfold loadContract at h
  obtain ⟨v, -, h⟩ := except_bind_eq_ok.mp h
  obtain ⟨abi, -, h⟩ := except_bind_eq_ok.mp h
  obtain ⟨bin, -, h⟩ := except_bind_eq_ok.mp h
  obtain ⟨items, entries, -, -, rfl⟩ := Artifact.ofAbi_eq_ok.mp h
  apply Bool.eq_false_iff.mpr
  intro hany
  obtain ⟨e, he, hname⟩ := List.any_eq_true.mp hany
  exact hentries e he (beq_iff_eq.mp hname)

theorem SameBut.deployable (h : SameBut name found found') : found'.deployable = found.deployable := by
  rw [← h.rest, Artifacts.deployable, Artifacts.deployable, Keyed.without, List.filter_filter]
  apply List.filter_congr
  intro p hp
  by_cases hn : p.1 = name
  · obtain ⟨k, a⟩ := p
    subst hn
    simp [h.unmarked a hp]
  · simp [hn]

theorem SameBut.insert_self (hn : name ∉ found.keys) {a : Artifact} (ha : a.deployable = false) :
    SameBut name found (found.insert name a) := by
  refine ⟨?_, fun b hb => ?_⟩
  · rw [Keyed.without_insert_self, Keyed.without_of_not_mem hn]
  · rcases Keyed.mem_insert hb with he | hm
    · cases he
      exact ha
    · exact absurd (List.mem_map_of_mem hm) hn

theorem SameBut.insert_of_ne (h : SameBut name found found') {other : String} (hne : other ≠ name)
    (a : Artifact) : SameBut name (found.insert other a) (found'.insert other a) := by
  refine ⟨?_, fun b hb => ?_⟩
  · rw [Keyed.without_insert_of_ne hne, h.rest]
  · rcases Keyed.mem_insert hb with he | hm
    · cases he
      exact absurd rfl hne
    · exact h.unmarked b hm

/-- Another contract is added to both in the same way. -/
theorem parallel_addContract (h : SameBut name found found') (hne : (splitKey key).2 ≠ name)
    (contract : Json) :
    Parallel Eq (SameBut name) (addContract found key contract) (addContract found' key contract) := by
  have hold : found'.get? (splitKey key).2 = found.get? (splitKey key).2 := by
    rw [← h.rest, Keyed.get?_without_of_ne hne]
  unfold addContract
  split
  · exact parallel_pure h
  · dsimp only
    apply parallel_then (parallel_liftM (together_refl (fun _ => rfl) _))
    intro a
    rw [hold]
    split
    · apply parallel_then (parallel_modify fun _ _ hs => by rw [hs])
      intro _
      exact parallel_pure (h.insert_of_ne hne a)
    · exact parallel_pure (h.insert_of_ne hne a)

theorem parallel_others {others : List (String × Json)}
    (hne : ∀ other ∈ others, (splitKey other.1).2 ≠ name) (h : SameBut name found found') :
    Parallel Eq (SameBut name)
      (others.foldlM (fun found (key, contract) => addContract found key contract) found)
      (others.foldlM (fun found (key, contract) => addContract found key contract) found') :=
  parallel_foldlM (fun other ho _ _ hab => parallel_addContract hab (hne other ho) other.2) h

/-- Contracts have no other names than those in their keys. -/
theorem not_mem_keys_foldlM {others : List (String × Json)}
    (hne : ∀ other ∈ others, (splitKey other.1).2 ≠ name) :
    ∀ {found all : Artifacts} {lines lines' : List LogLine}, name ∉ found.keys →
      Runs (others.foldlM (fun found (key, contract) => addContract found key contract) found) lines
        (.ok all) lines' → name ∉ all.keys := by
  induction others with
  | nil =>
    intro found all lines lines' hn h
    cases (runs_pure.mp h).1
    exact hn
  | cons other others ih =>
    intro found all lines lines' hn h
    rw [List.foldlM_cons] at h
    obtain ⟨found', u, hadd, h⟩ := runs_bind_ok.mp h
    refine ih (fun o ho => hne o (List.mem_cons_of_mem other ho)) ?_ h
    rcases runs_addContract_ok hadd with ⟨-, rfl, -⟩ | ⟨-, a, -, rfl, -⟩
    · exact hn
    · rw [Keyed.keys_insert]
      split
      · exact hn
      · simpa [hn] using (hne other List.mem_cons_self).symm

/-- A contract with a new name is added without a warning. -/
theorem runs_addContract_new (hnew : (splitKey key).2 ∉ found.keys) {a : Artifact}
    (hload : loadContract key contract = .ok a) (hunmarked : a.deployable = false) :
    ∃ found', SameBut (splitKey key).2 found found' ∧
      ∀ lines, Runs (addContract found key contract) lines (.ok found') lines := by
  have hnone : found.get? (splitKey key).2 = none := Keyed.get?_eq_none hnew
  by_cases hm : isMarker key = true
  · refine ⟨found, ⟨Keyed.without_of_not_mem hnew, fun b hb => ?_⟩, fun lines => ?_⟩
    · exact absurd (List.mem_map_of_mem hb) hnew
    · rw [addContract, if_pos hm]
      exact runs_pure.mpr ⟨rfl, rfl⟩
  · refine ⟨found.insert (splitKey key).2 a, .insert_self hnew hunmarked, fun lines => ?_⟩
    rw [addContract, if_neg hm]
    dsimp only
    refine runs_bind_ok.mpr ⟨a, lines, runs_liftM.mpr ⟨hload.symm, rfl⟩, ?_⟩
    rw [hnone]
    exact runs_pure.mpr ⟨rfl, rfl⟩

/-- Where a contract is put that is not marked, the selection does not change. -/
theorem parallel_run_inserted {combined combined' : Json} {before after : List (String × Json)}
    (hold : combined.field "contracts" = .ok (.obj (before ++ after)))
    (hnew : combined'.field "contracts" = .ok (.obj (before ++ (key, contract) :: after)))
    (h : IsUntagged (before ++ after) key contract) :
    Parallel Eq (fun all all' => all'.deployable = all.deployable) (run combined) (run combined') := by
  obtain ⟨a, hload, hentries⟩ := h.loads
  have hunmarked := deployable_eq_false hload hentries
  have hbefore : ∀ other ∈ before, (splitKey other.1).2 ≠ (splitKey key).2 := fun o ho =>
    h.name o (List.mem_append_left after ho)
  have hafter : ∀ other ∈ after, (splitKey other.1).2 ≠ (splitKey key).2 := fun o ho =>
    h.name o (List.mem_append_right before ho)
  rw [run_of_contracts hold, run_of_contracts hnew, List.foldlM_append, List.foldlM_append]
  -- up to the contract the two are one run, in which its name does not come up
  apply parallel_bind (P := fun found found' => found' = found ∧ (splitKey key).2 ∉ Keyed.keys found)
  · apply parallel_self
    intro lines found lines' hrun
    exact ⟨rfl, not_mem_keys_foldlM hbefore List.not_mem_nil hrun⟩
  rintro found _ ⟨rfl, hn⟩
  obtain ⟨found', hsame, hadd⟩ := runs_addContract_new hn hload hunmarked
  intro lines _ hl
  subst hl
  obtain ⟨r, r', t, t', hr, hr', ho, ht⟩ := parallel_others hafter hsame lines lines rfl
  refine ⟨r, r', t, t', hr, ?_, ?_, ht⟩
  · rw [List.foldlM_cons]
    exact (runs_bind_of_ok (hadd lines)).mpr hr'
  · cases ho with
    | ok h => exact .ok h.deployable
    | error e => exact .error e

end Extraction

namespace Build

open Extraction Session

/-- **Contracts that are not marked have no influence.** What is planned and written for some artifacts
is what is for the marked ones among them; and a contract that is not marked may stand anywhere in
the output of the compiler, the selection is the same, and a build goes as it goes without it. -/
theorem untagged_irrelevant :
    (∀ as : Artifacts, as.keys.Nodup → UsedAlike as as.deployable) ∧
    ∀ combined combined' before after key contract,
      combined.field "contracts" = .ok (.obj (before ++ after)) →
      combined'.field "contracts" = .ok (.obj (before ++ (key, contract) :: after)) →
      IsUntagged (before ++ after) key contract →
        Artifacts.deployable <$> Extraction.run combined' =
          Artifacts.deployable <$> Extraction.run combined ∧
        ∀ output output', IsJsonFile output combined → IsJsonFile output' combined' →
          BuildAlike output output' := by
  refine ⟨fun as h => usedAlike_deployable h, ?_⟩
  intro combined combined' before after key contract hold hnew huntagged
  have hparallel := parallel_run_inserted hold hnew huntagged
  refine ⟨map_eq_of_parallel hparallel, ?_⟩
  intro output output' hfile hfile'
  exact buildAlike_of_sameSelection ⟨hfile, hfile', hparallel⟩

def mixedOutput : String :=
  "\x7b\"contracts\": \x7b\"B.sol:Base\": \x7b\"abi\": []\x7d, " ++
    "\"Vault.sol:Vault\": \x7b\"abi\": [\x7b\"name\": \"deployable\"\x7d]\x7d\x7d\x7d"

theorem untagged_irrelevant_base :
    UsedAlike [("Desk", Client.desk), ("Büro😀", Client.office)] [("Büro😀", Client.office)] ∧
      IsUntagged (vaultContracts markedAbi) "B.sol:Base" (.obj [("abi", .arr [])]) ∧
      BuildAlike (Text.Utf8.encode newOutput) (Text.Utf8.encode mixedOutput) := by
  have huntagged : IsUntagged (vaultContracts markedAbi) "B.sol:Base" (.obj [("abi", .arr [])]) := by
    refine ⟨⟨⟨"Base", .arr [], .str "", [], .null, some "B.sol", false⟩, by rfl, ?_⟩, by decide⟩
    exact fun _ he => absurd he List.not_mem_nil
  have hfile' : IsJsonFile (Text.Utf8.encode mixedOutput) (.obj [("contracts",
      .obj (("B.sol:Base", .obj [("abi", .arr [])]) :: vaultContracts markedAbi))]) :=
    ⟨mixedOutput.toList, by decide +kernel, by decide +kernel⟩
  refine ⟨untagged_irrelevant.1 _ (by decide), huntagged, ?_⟩
  exact (untagged_irrelevant.2 _ _ [] (vaultContracts markedAbi) "B.sol:Base" (.obj [("abi", .arr [])])
    (by rfl) (by rfl) huntagged).2 _ _ isJsonFile_newOutput hfile'

end Build

end ContractBindings
