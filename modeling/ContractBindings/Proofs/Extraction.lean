import ContractBindings.Proofs.Keyed
import ContractBindings.Proofs.Session.Runs

/-!
# Extracted contracts

What the addition of one contract does, and from it what holds of all
contracts that are extracted: their names are distinct.
-/

namespace ContractBindings.Extraction

variable {found all : Artifacts} {lines lines' : List LogLine}

def warnings (found : Artifacts) (path name : String) : List LogLine :=
  match found.get? name with
  | some old => [warning name old path]
  | none => []

/-- A marker is left out, and every other contract is stored under its name. -/
theorem runs_addContract_ok {key : String} {contract : Json}
    (h : Runs (addContract found key contract) lines (.ok all) lines') :
    (isMarker key = true ∧ all = found ∧ lines' = lines) ∨
      (isMarker key = false ∧ ∃ a, loadContract key contract = .ok a ∧
        all = found.insert (splitKey key).2 a ∧
        lines' = lines ++ warnings found (splitKey key).1 (splitKey key).2) := by
  unfold addContract at h
  by_cases hm : isMarker key = true
  · rw [if_pos hm] at h
    obtain ⟨ha, rfl⟩ := runs_pure.mp h
    cases ha
    exact Or.inl ⟨hm, rfl, rfl⟩
  · rw [if_neg hm] at h
    refine Or.inr ⟨Bool.eq_false_iff.mpr hm, ?_⟩
    dsimp only at h
    obtain ⟨a, u, hload, hstore⟩ := runs_bind_ok.mp h
    obtain ⟨ha, rfl⟩ := runs_liftM.mp hload
    refine ⟨a, ha.symm, ?_⟩
    unfold warnings
    cases hf : found.get? (splitKey key).2 with
    | none =>
      rw [hf] at hstore
      obtain ⟨he, rfl⟩ := runs_pure.mp hstore
      cases he
      exact ⟨rfl, (List.append_nil _).symm⟩
    | some old =>
      rw [hf] at hstore
      dsimp only at hstore
      rw [runs_modify_bind] at hstore
      obtain ⟨he, rfl⟩ := runs_pure.mp hstore
      cases he
      exact ⟨rfl, rfl⟩

theorem nodup_keys_foldlM : ∀ {contracts : List (String × Json)} {found : Artifacts}
    {lines : List LogLine},
    Runs (contracts.foldlM (fun found (key, contract) => addContract found key contract) found) lines
      (.ok all) lines' → found.keys.Nodup → all.keys.Nodup
  | [], found, lines, h, hn => by
    rw [List.foldlM_nil] at h
    cases (runs_pure.mp h).1
    exact hn
  | (key, contract) :: contracts, found, lines, h, hn => by
    rw [List.foldlM_cons] at h
    obtain ⟨found', u, hadd, h⟩ := runs_bind_ok.mp h
    apply nodup_keys_foldlM h
    rcases runs_addContract_ok hadd with ⟨-, rfl, -⟩ | ⟨-, a, -, rfl, -⟩
    · exact hn
    · exact Keyed.nodup_keys_insert hn _ a

theorem liftM_ok {α : Type} (a : α) : (liftM (.ok a : Except Error α) : Logged α) = pure a := rfl

theorem run_of_contracts {combined : Json} {contracts : List (String × Json)}
    (h : combined.field "contracts" = .ok (.obj contracts)) :
    run combined =
      contracts.foldlM (fun found (key, contract) => addContract found key contract) [] := by
  unfold run
  rw [h, liftM_ok, pure_bind]
  cases contracts with
  | nil => simp [Json.isTruthy]
  | cons entry contracts => simp [Json.isTruthy, Json.fields?, liftM_ok]

theorem nodup_keys_run {combined : Json} (h : Runs (run combined) lines (.ok all) lines') :
    all.keys.Nodup := by
  unfold run at h
  obtain ⟨contracts, u, -, hrest⟩ := runs_bind_ok.mp h
  dsimp only at hrest
  split at hrest
  · obtain ⟨fields, v, -, hfold⟩ := runs_bind_ok.mp hrest
    exact nodup_keys_foldlM hfold List.nodup_nil
  · rw [pure_bind] at hrest
    exact nodup_keys_foldlM hrest List.nodup_nil

end ContractBindings.Extraction
