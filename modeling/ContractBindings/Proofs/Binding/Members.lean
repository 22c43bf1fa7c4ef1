import ContractBindings.Binding.Member
import Mathlib.Data.List.Forall2

/-!
# Members and the functions they are built from

A contract has one member for each function among its entries, in their
order (`ofEntries_builtFrom`). All but the method name of a member is settled
by its function and by the names of the others.
-/

namespace ContractBindings.Member

/-- A member is the one for a function among the functions of a contract, whatever its method is
called. -/
structure BuiltFrom (contract : String) (functions : List Abi.Entry) (f : Abi.Entry) (m : Member) :
    Prop where
  contract : m.contract = contract
  name : m.name = f.name
  params : m.params = f.paramNames
  payable : m.payable = f.payable
  callKey : m.callKey = if isOverloaded functions f then f.signature else f.name

theorem build_builtFrom (contract : String) (functions : List Abi.Entry) :
    ∀ (taken : List String) (fs : List Abi.Entry),
      List.Forall₂ (BuiltFrom contract functions) fs (build contract functions taken fs)
  | _, [] => .nil
  | _, _ :: fs => .cons ⟨rfl, rfl, rfl, rfl, rfl⟩ (build_builtFrom contract functions _ fs)

/-- **There is one member for each function, in the order of the entries.** -/
theorem ofEntries_builtFrom (contract : String) (entries : List Abi.Entry) :
    List.Forall₂ (BuiltFrom contract (entries.filter (·.isFunction))) (entries.filter (·.isFunction))
      (ofEntries contract entries) :=
  build_builtFrom contract _ [] _

theorem isOverloaded_iff {functions : List Abi.Entry} {f : Abi.Entry} (hf : f ∈ functions) :
    isOverloaded functions f = false ↔ functions.countP (·.name == f.name) = 1 := by
  have hpos : 0 < functions.countP (·.name == f.name) :=
    List.countP_pos_iff.mpr ⟨f, hf, beq_self_eq_true _⟩
  rw [isOverloaded, decide_eq_false_iff_not]
  omega

end ContractBindings.Member
