import ContractBindings.Proofs.Build.TwoOutputs

/-!
# The arguments that a build is given

A table of argument lists reaches a build through the plan alone, where each
deployable contract gets the list under its name. So two tables with the same
lists for these contracts lead to the same run, whatever else they hold.
-/

namespace ContractBindings

/-- Values under the names of contracts, which are taken for arguments if they are lists. -/
abbrev ArgumentTable := Keyed (Json CodePoints) CodePoints

def IsTable (m : ArgumentTable) : Prop := ∀ name v, (name, v) ∈ m → ∃ vs, v = .arr vs

def listUnder (m : ArgumentTable) (name : String) : List (Json CodePoints) :=
  match m.get? (.ofString name) with
  | some (.arr vs) => vs
  | _ => []

theorem argumentsFor_table {m : ArgumentTable} (hm : IsTable m) (name : String) :
    argumentsFor (.obj m) name = .ok (listUnder m name) := by
  rw [argumentsFor_obj, listUnder]
  cases hget : m.get? (.ofString name) with
  | none => rfl
  | some v =>
    obtain ⟨vs, rfl⟩ := hm _ v (Keyed.mem_of_get? hget)
    rfl

namespace Deployment

/-- **Each deployable contract gets the list under its name, or the empty list.** -/
theorem plan_table {m : ArgumentTable} (hm : IsTable m) (artifacts : Artifacts) :
    plan artifacts (.obj m) =
      .ok (artifacts.deployable.map fun (name, _) => ⟨name, name, listUnder m name⟩) := by
  rw [plan_eq_ok, List.forall₂_map_right_iff, List.forall₂_same]
  intro p _
  exact ⟨rfl, rfl, argumentsFor_table hm p.1⟩

theorem plan_congr {m m' : ArgumentTable} (hm : IsTable m) (hm' : IsTable m') {artifacts : Artifacts}
    (h : ∀ name ∈ artifacts.keys, listUnder m name = listUnder m' name) :
    plan artifacts (.obj m) = plan artifacts (.obj m') := by
  rw [plan_table hm, plan_table hm']
  refine congrArg Except.ok (List.map_congr_left fun p hp => ?_)
  have hkey : p.1 ∈ artifacts.keys := List.mem_map_of_mem (List.mem_of_mem_filter hp)
  dsimp only
  rw [h p.1 hkey]

end Deployment

namespace Build

variable {services : Services} {settings : Settings} {request : BuildRequest} {s : State}

/-- A contract that a build deploys, if it gets so far: it is deployable in the output of the
compiler. -/
def Deploys (services : Services) (request : BuildRequest) (s : State) (name : String) : Prop :=
  ∃ settings u contracts t, Runs (settingsFor request) s (.ok settings) u ∧
    Runs (compileContracts services settings request.sourcePath request.directoryPath) u
      (.ok contracts) t ∧ name ∈ contracts.keys

theorem deployContracts_congr {args args' : Json CodePoints} {contracts : Artifacts}
    (h : Deployment.plan contracts args = Deployment.plan contracts args') (d : Option Deployer) :
    deployContracts services settings d args contracts =
      deployContracts services settings d args' contracts := by
  unfold deployContracts
  rw [h]

theorem stages_congr {args args' : Json CodePoints} (h : ∀ contracts u,
    Runs (compileContracts services settings request.sourcePath request.directoryPath) s
      (.ok contracts) u → Deployment.plan contracts args = Deployment.plan contracts args') :
    (stages services settings { request with args }).run.run s =
      (stages services settings { request with args := args' }).run.run s := by
  rw [stages_eq, stages_eq, prepare, prepare, bind_assoc, bind_assoc]
  refine run_bind_congr fun contracts u hcompile => ?_
  show (deployContracts services settings request.deployer args contracts >>= _).run.run u =
    (deployContracts services settings request.deployer args' contracts >>= _).run.run u
  rw [deployContracts_congr (h contracts u hcompile)]
  rfl

/-- **Tables that agree on the deployable contracts lead to the same run.** -/
theorem run_table_congr {m m' : ArgumentTable} (hm : IsTable m) (hm' : IsTable m')
    (h : ∀ name, Deploys services request s name → listUnder m name = listUnder m' name) :
    (run services { request with args := .obj m }).run.run s =
      (run services { request with args := .obj m' }).run.run s := by
  rw [run_eq, run_eq]
  refine run_bind_congr fun settings u hsettings => ?_
  refine run_tryCatch_congr _ (stages_congr fun contracts t hcompile => ?_)
  exact Deployment.plan_congr hm hm' fun name hname =>
    h name ⟨settings, u, contracts, t, hsettings, hcompile, hname⟩

end Build

end ContractBindings
