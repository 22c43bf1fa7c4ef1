import ContractBindings.Binding.Client
import ContractBindings.Proofs.Binding.Members
import ContractBindings.Proofs.Text.Split
import Mathlib.Data.List.Nodup

/-!
# Parameters of methods and hooks

A parameter is called by its type and its name with an underscore between
them. Where no type holds an underscore, such a name is read in one way, and
none of them is the one for the payment. So a parameter can have the name of
another one only if both are unnamed in the ABI and of one type, as the keys of
a mapping can be.
-/

namespace ContractBindings

namespace Abi.Entry

/-! ## Names with a type -/

theorem typed_name_eq_iff {type type' name name' : String} (h : '_' ∉ type.toList)
    (h' : '_' ∉ type'.toList) :
    type ++ "_" ++ name = type' ++ "_" ++ name' ↔ type = type' ∧ name = name' := by
  constructor
  · intro he
    have hcut := congrArg (fun s : String => Text.cutFirst? '_' s.toList) he
    have hread : ∀ {t n : String}, '_' ∉ t.toList →
        Text.cutFirst? '_' (t ++ "_" ++ n).toList = some (t.toList, n.toList) := by
      intro t n ht
      have hchars : (t ++ "_" ++ n).toList = t.toList ++ '_' :: n.toList := by simp
      rw [hchars, Text.cutFirst?_append ht]
    rw [hread h, hread h', Option.some.injEq, Prod.mk.injEq] at hcut
    exact ⟨String.toList_inj.mp hcut.1, String.toList_inj.mp hcut.2⟩
  · rintro ⟨rfl, rfl⟩
    rfl

theorem overridesParam_ne (type name : String) : overridesParam ≠ type ++ "_" ++ name := by
  intro he
  have hmem : '_' ∈ overridesParam.toList := by
    rw [he]
    simp
  exact absurd hmem (by decide)

/-- The parameter for the payment has a name of its own. -/
theorem paramNames_nodup_iff_typed {e : Abi.Entry} : e.paramNames.Nodup ↔
    (e.parameters.map fun p => p.shape.typeName ++ "_" ++ p.name).Nodup := by
  rw [paramNames, List.nodup_append]
  constructor
  · exact fun h => h.1
  · intro h
    refine ⟨h, ?_, ?_⟩
    · split <;> simp
    · intro a ha b hb hab
      obtain ⟨p, -, rfl⟩ := List.mem_map.mp ha
      split at hb
      · rw [List.mem_singleton] at hb
        exact overridesParam_ne _ _ (hb.symm.trans hab.symm)
      · cases hb

def unnamedTypes (e : Abi.Entry) : List String :=
  (e.parameters.filter (·.name == "")).map (·.shape.typeName)

/-- **The parameters of a method have distinct names exactly if no two unnamed ones have one type**,
when the names that the ABI gives are distinct and no type holds an underscore. The method and the hook
of the function list these names. -/
theorem paramNames_nodup_iff {e : Abi.Entry}
    (hnames : ((e.parameters.map (·.name)).filter (· ≠ "")).Nodup)
    (htypes : ∀ p ∈ e.parameters, '_' ∉ p.shape.typeName.toList) :
    (e.paramNames.Nodup ↔ e.unnamedTypes.Nodup) ∧
    ∀ (contract : String) (functions : List Abi.Entry) (m : Member),
      Member.BuiltFrom contract functions e m → m.args = ", ".intercalate e.paramNames := by
  have hnamed : e.parameters.Pairwise fun p q => p.name ≠ "" → q.name ≠ "" → p.name ≠ q.name := by
    have h := hnames
    rw [List.filter_map, List.Nodup, List.pairwise_map, List.pairwise_filter] at h
    simpa using h
  have hunnamed : e.unnamedTypes.Nodup ↔ e.parameters.Pairwise fun p q =>
      p.name = "" → q.name = "" → p.shape.typeName ≠ q.shape.typeName := by
    rw [unnamedTypes, List.Nodup, List.pairwise_map, List.pairwise_filter]
    simp only [beq_iff_eq]
  have heq : ∀ p ∈ e.parameters, ∀ q ∈ e.parameters,
      (p.shape.typeName ++ "_" ++ p.name = q.shape.typeName ++ "_" ++ q.name ↔
        p.shape.typeName = q.shape.typeName ∧ p.name = q.name) :=
    fun p hp q hq => typed_name_eq_iff (htypes p hp) (htypes q hq)
  refine ⟨?_, fun contract functions m hm => by rw [Member.args, hm.params]⟩
  rw [paramNames_nodup_iff_typed, hunnamed, List.Nodup, List.pairwise_map]
  constructor
  · refine List.Pairwise.imp_of_mem fun {p q} hp hq hne hpn hqn htype => ?_
    exact hne ((heq p hp q hq).mpr ⟨htype, hpn.trans hqn.symm⟩)
  · intro hfree
    refine (hnamed.and hfree).imp_of_mem fun {p q} hp hq h he => ?_
    obtain ⟨htype, hname⟩ := (heq p hp q hq).mp he
    by_cases hpn : p.name = ""
    · exact h.2 hpn (hname ▸ hpn) htype
    · exact h.1 hpn (hname ▸ hpn) hname

def allowance (owner spender : String) : Json :=
  .obj [("type", .str "function"), ("name", .str "allowance"), ("inputs", .arr [
    .obj [("name", .str owner), ("type", .str "address")],
    .obj [("name", .str spender), ("type", .str "address")]])]

def allowanceEntry (owner spender : String) : Abi.Entry where
  name := "allowance"
  parameters := [⟨owner, .elementary "address"⟩, ⟨spender, .elementary "address"⟩]
  payable := false
  kind := functionKind

theorem paramNames_nodup_iff_allowance :
    (((allowanceEntry "owner" "").parameters.map (·.name)).filter (· ≠ "")).Nodup ∧
    (∀ p ∈ (allowanceEntry "owner" "").parameters, '_' ∉ p.shape.typeName.toList) ∧
    (allowanceEntry "owner" "").paramNames = ["address_owner", "address_"] ∧
    (allowanceEntry "owner" "").paramNames.Nodup := by
  have hnames : (((allowanceEntry "owner" "").parameters.map (·.name)).filter (· ≠ "")).Nodup := by
    decide
  have htypes : ∀ p ∈ (allowanceEntry "owner" "").parameters, '_' ∉ p.shape.typeName.toList := by
    decide
  exact ⟨hnames, htypes, by decide, (paramNames_nodup_iff hnames htypes).1.mpr (by decide)⟩

/-- The getter with two unnamed keys of one type has one parameter twice. -/
theorem paramNames_repeated :
    Entry.ofJson (allowance "" "") = .ok (allowanceEntry "" "") ∧
    (((allowanceEntry "" "").parameters.map (·.name)).filter (· ≠ "")).Nodup ∧
    (∀ p ∈ (allowanceEntry "" "").parameters, '_' ∉ p.shape.typeName.toList) ∧
    (allowanceEntry "" "").paramNames = ["address_", "address_"] ∧
    ¬(allowanceEntry "" "").paramNames.Nodup ∧
    (Member.ofEntries "Token" [allowanceEntry "" ""]).flatMap Client.methodLines = [
      "",
      "    async allowance(address_, address_) \x7b",
      "        return await this.contract.allowance(address_, address_);",
      "    \x7d"] := by
  exact ⟨rfl, by decide, by decide, by decide, by decide, by decide⟩

end Abi.Entry

end ContractBindings
