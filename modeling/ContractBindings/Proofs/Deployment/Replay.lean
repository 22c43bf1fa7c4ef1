import ContractBindings.Proofs.Session.Parallel

/-!
# Deployments on nodes that answer alike

A deployment depends on the contracts, its tasks and the answers of the node.
From states with the same contracts, on nodes that answer alike, it comes to
the same outcome by the same calls, whatever else is in the states.
-/

namespace ContractBindings

open Session

variable {disks : Files.Disk → Files.Disk → Prop} {start start' : State} {chain chain' : Chain}

theorem parallel_plan (contracts : Artifacts) (args : Json CodePoints) :
    Parallel (Alike disks start start') Eq (ofExcept (Deployment.plan contracts args))
      (ofExcept (Deployment.plan contracts args)) :=
  parallel_ofExcept (together_refl (fun _ => rfl) _)

namespace Deployer

variable (d : Deployer)

theorem parallel_setAddress (key : String) (address : Json) :
    Parallel (Alike disks start start') Eq (setAddress key address) (setAddress key address) := by
  apply parallel_modify
  intro s s' h
  rw [h.contracts]
  cases s.contracts.get? key with
  | none => exact h
  | some a => exact { h with contracts := rfl }

section
variable (h : AnswersAlike chain chain' start.exchanges start'.exchanges)
include h

theorem parallel_sender :
    Parallel (Alike disks start start') Eq (d.sender chain) (d.sender chain') := by
  unfold sender
  split
  · exact parallel_ask h (.keyAccount _)
  · exact parallel_ask h (.checksumAddress _)
  · apply parallel_then (parallel_ask h .accounts)
    intro accounts
    split
    · exact parallel_throw _
    · exact parallel_pure rfl

theorem parallel_params (sender : String) :
    Parallel (Alike disks start start') Eq (d.params chain sender) (d.params chain' sender) := by
  unfold params
  dsimp only
  split
  · exact parallel_pure rfl
  · rw [bind_map_left, bind_map_left]
    exact parallel_then (parallel_ask h (.toWei _)) fun _ => parallel_pure rfl

theorem parallel_submit (params : TransactionParams) (args : List (Json CodePoints)) :
    Parallel (Alike disks start start') Eq (d.submit chain params args)
      (d.submit chain' params args) := by
  unfold submit
  split
  · apply parallel_then (parallel_ask h (.transactionCount _))
    intro nonce
    apply parallel_then (parallel_ask h (.construct args))
    intro _
    apply parallel_then (parallel_ask h (.build _))
    intro transaction
    apply parallel_then (parallel_ask h (.sign _ _))
    intro raw
    exact parallel_ask h (.sendRaw raw)
  · exact parallel_then (parallel_ask h (.construct args)) fun _ => parallel_ask h (.transact params)

theorem parallel_deploy (task : Task) :
    Parallel (Alike disks start start') Eq (d.deploy chain task) (d.deploy chain' task) := by
  unfold deploy
  apply parallel_get_bind
  intro s s' hs
  rw [hs.contracts]
  cases s.contracts.get? task.key with
  | none => exact parallel_throw _
  | some artifact =>
    apply parallel_then (parallel_ofExcept (together_refl (fun _ => rfl) _))
    intro code
    apply parallel_then (parallel_ask h (.contract artifact.abi code))
    intro _
    apply parallel_then (d.parallel_sender h)
    intro sender
    apply parallel_then (d.parallel_params h sender)
    intro params
    apply parallel_then (d.parallel_submit h params task.args)
    intro hash
    apply parallel_then (parallel_log _ _)
    intro _
    apply parallel_then (parallel_ask h (.wait hash d.receiptTimeout))
    intro receipt
    dsimp only
    split
    · exact parallel_bind (P := fun _ _ => False) (parallel_throw _) fun _ _ => False.elim
    · apply parallel_then (parallel_setAddress _ _)
      intro _
      exact parallel_then (parallel_log _ _) fun _ => parallel_pure rfl

theorem parallel_run (tasks : List Task) :
    Parallel (Alike disks start start') Eq (d.run chain tasks) (d.run chain' tasks) := by
  have hlogged : ∀ task, Parallel (Alike disks start start') Eq (d.deployLogged chain task)
      (d.deployLogged chain' task) := fun task =>
    parallel_tryCatch (d.parallel_deploy h task) fun _ => parallel_log_throw _ _ _
  unfold run
  split
  · exact parallel_pure rfl
  · apply parallel_then (parallel_ask h .isConnected)
    intro connected
    dsimp only
    split
    · exact parallel_log_throw _ _ _
    · exact parallel_mapM hlogged tasks

end

end Deployer

namespace Build

theorem parallel_theDeployer (settings : Settings) (deployer : Option Deployer) :
    Parallel (Alike disks start start') Eq (theDeployer settings deployer)
      (theDeployer settings deployer) := by
  unfold theDeployer
  split
  · exact parallel_pure rfl
  · exact parallel_then (parallel_record fun _ => Event.noConfusion) fun _ => parallel_pure rfl

theorem parallel_deployContracts (tools tools' : Toolchain) (settings : Settings)
    (deployer : Option Deployer) (args : Json CodePoints) (contracts : Artifacts)
    (h : AnswersAlike chain chain' start.exchanges start'.exchanges) :
    Parallel (Alike disks start start') Eq
      (deployContracts ⟨tools, chain⟩ settings deployer args contracts)
      (deployContracts ⟨tools', chain'⟩ settings deployer args contracts) := by
  have hgive : Parallel (Alike disks start start') Eq (do return (← get).contracts : Session Artifacts)
      (do return (← get).contracts) :=
    parallel_get_bind fun s s' hs => parallel_pure hs.contracts.symm
  unfold deployContracts
  apply parallel_then (parallel_modify fun s s' hs => { hs with contracts := rfl })
  intro _
  dsimp only
  split
  · apply parallel_then (parallel_theDeployer settings deployer)
    intro d
    apply parallel_then (parallel_plan contracts args)
    intro tasks
    apply parallel_then (d.parallel_run h tasks)
    intro results
    exact parallel_then (parallel_forM (fun _ => parallel_log _ _) results) fun _ => hgive
  · exact hgive

end Build

end ContractBindings
