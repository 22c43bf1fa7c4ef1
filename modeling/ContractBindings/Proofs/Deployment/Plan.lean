import ContractBindings.Deployment
import ContractBindings.Proofs.Outcome

/-!
# What is planned

A plan has one task for each contract that is to be deployed, in order, with
the arguments under its name. The tasks do not depend on anything else.
-/

namespace ContractBindings

def argumentsFor (args : Json CodePoints) (name : String) :
    Except Error (List (Json CodePoints)) := do
  let given ← (if args.isTruthy then args else .obj []).field? (.ofString name)
  (given.getD (.arr [])).items?

theorem argumentsFor_obj (fields : List (CodePoints × Json CodePoints)) (name : String) :
    argumentsFor (.obj fields) name =
      match Keyed.get? fields (.ofString name) with
      | some given => given.items?
      | none => .ok [] := by
  have hargs : (if (Json.obj fields).isTruthy then Json.obj fields else .obj []) = .obj fields := by
    cases fields <;> rfl
  unfold argumentsFor
  rw [hargs]
  show ((Keyed.get? fields (.ofString name)).getD (.arr [])).items? = _
  cases Keyed.get? fields (.ofString name) <;> rfl

namespace Deployment

def IsTaskFor (args : Json CodePoints) (contract : String × Artifact) (task : Task) : Prop :=
  task.name = contract.1 ∧ task.key = contract.1 ∧ argumentsFor args contract.1 = .ok task.args

theorem plan_eq_ok {artifacts : Artifacts} {args : Json CodePoints} {tasks : List Task} :
    plan artifacts args = .ok tasks ↔
      List.Forall₂ (IsTaskFor args) artifacts.deployable tasks := by
  have hplan : plan artifacts args = artifacts.deployable.mapM fun q =>
      argumentsFor args q.1 >>= fun vs => pure ⟨q.1, q.1, vs⟩ := by
    simp only [plan, argumentsFor, bind_assoc]
  rw [hplan, mapM_eq_ok_iff]
  constructor
  · intro h
    apply h.imp
    intro q task hq
    obtain ⟨vs, hvs, ht⟩ := except_bind_eq_ok.mp hq
    cases ht
    exact ⟨rfl, rfl, hvs⟩
  · intro h
    apply h.imp
    intro q task hq
    obtain ⟨hn, hk, hvs⟩ := hq
    refine except_bind_eq_ok.mpr ⟨task.args, hvs, ?_⟩
    rw [← hn, except_pure_eq_ok]
    obtain ⟨name, key, args⟩ := task
    rw [show key = name from hk.trans hn.symm]

end Deployment

end ContractBindings
