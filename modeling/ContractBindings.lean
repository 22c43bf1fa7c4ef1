import ContractBindings.Main
import ContractBindings.Proofs.Binding.CallKey
import ContractBindings.Proofs.Binding.ClientImport
import ContractBindings.Proofs.Binding.Parameters
import ContractBindings.Proofs.Binding.Reordering
import ContractBindings.Proofs.Binding.SafeNames
import ContractBindings.Proofs.Build.Failures
import ContractBindings.Proofs.Build.SharedDirectory
import ContractBindings.Proofs.Build.Untagged
import ContractBindings.Proofs.Command.Arguments
import ContractBindings.Proofs.Compilation.Complaints
import ContractBindings.Proofs.Deployment.Nonces
import ContractBindings.Proofs.Deployment.Workbench
import ContractBindings.Proofs.Extraction.Definitions
import ContractBindings.Proofs.Settings.Items
import ContractBindings.Proofs.Settings.Precedence
