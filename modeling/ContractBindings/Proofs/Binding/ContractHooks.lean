import ContractBindings.Proofs.Binding.HookNames
import ContractBindings.Proofs.Binding.Methods

/-!
# Names of hooks within one contract

The methods of a contract have distinct names, but the name of a hook begins
the name of its method with a capital letter. So two hooks of a contract have
one name exactly if their methods differ in that letter only
(`hookName_eq_iff`), and nothing else that makes a method's name, be it types
or a number, brings two hooks to one name.
-/

namespace ContractBindings

/-! ## Capital letters -/

theorem isLower_iff {c : Char} : c.isLower = true ↔ 'a'.val ≤ c.val ∧ c.val ≤ 'z'.val := by
  constructor
  · intro h
    obtain ⟨ha, hz⟩ := Bool.and_eq_true_iff.mp h
    exact ⟨of_decide_eq_true ha, of_decide_eq_true hz⟩
  · rintro ⟨ha, hz⟩
    exact Bool.and_eq_true_iff.mpr ⟨decide_eq_true ha, decide_eq_true hz⟩

theorem toUpper_of_not_isLower {c : Char} (h : c.isLower = false) : c.toUpper = c := by
  rw [← Bool.not_eq_true, isLower_iff] at h
  exact dif_neg h

theorem val_toUpper_of_isLower {c : Char} (h : c.isLower = true) :
    c.toUpper.val = c.val + ('A'.val - 'a'.val) := by
  delta Char.toUpper
  rw [dif_pos (isLower_iff.mp h)]

theorem isLower_toUpper (c : Char) : c.toUpper.isLower = false := by
  cases h : c.isLower with
  | false => rwa [toUpper_of_not_isLower h]
  | true =>
    have hrange := isLower_iff.mp h
    have hval := congrArg UInt32.toNat (val_toUpper_of_isLower h)
    have hshift : ('A'.val - 'a'.val).toNat = 2 ^ 32 - 32 := rfl
    have ha : 'a'.val.toNat = 97 := rfl
    have hz : 'z'.val.toNat = 122 := rfl
    rw [UInt32.toNat_add, hshift] at hval
    rw [← Bool.not_eq_true, isLower_iff]
    simp only [UInt32.le_iff_toNat_le] at hrange ⊢
    omega

theorem toUpper_inj_of_isLower {c d : Char} (hc : c.isLower = true) (hd : d.isLower = true)
    (h : c.toUpper = d.toUpper) : c = d := by
  have hval := congrArg Char.val h
  rw [val_toUpper_of_isLower hc, val_toUpper_of_isLower hd] at hval
  exact Char.ext ((UInt32.add_left_inj _).mp hval)

/-- Letters have one capital exactly if they are the same or one is the capital of the other. -/
theorem toUpper_eq_toUpper_iff {c d : Char} : c.toUpper = d.toUpper ↔
    c = d ∨ (c.isLower = true ∧ d = c.toUpper) ∨ (d.isLower = true ∧ c = d.toUpper) := by
  constructor
  · intro h
    cases hc : c.isLower with
    | true =>
      cases hd : d.isLower with
      | true => exact .inl (toUpper_inj_of_isLower hc hd h)
      | false => exact .inr (.inl ⟨rfl, by rw [h, toUpper_of_not_isLower hd]⟩)
    | false =>
      rw [toUpper_of_not_isLower hc] at h
      cases hd : d.isLower with
      | true => exact .inr (.inr ⟨rfl, h⟩)
      | false => exact .inl (by rw [h, toUpper_of_not_isLower hd])
  · rintro (rfl | ⟨-, rfl⟩ | ⟨-, rfl⟩)
    · rfl
    · rw [toUpper_of_not_isLower (isLower_toUpper c)]
    · rw [toUpper_of_not_isLower (isLower_toUpper d)]

def isCapitalized (s t : String) : Bool :=
  match s.toList, t.toList with
  | c :: cs, d :: ds => c.isLower && d == c.toUpper && cs == ds
  | _, _ => false

theorem isCapitalized_iff {s t : String} {c d : Char} {cs ds : List Char} (hs : s.toList = c :: cs)
    (ht : t.toList = d :: ds) :
    isCapitalized s t = true ↔ (c.isLower = true ∧ d = c.toUpper) ∧ cs = ds := by
  simp [isCapitalized, hs, ht]

namespace Member

variable {f f' : Abi.Entry} {m m' : Member}

/-- Hooks of one contract have one name exactly if their methods have, but for a capital letter at the
front. -/
theorem hookName_eq_iff (hm : MethodGoesOn f m) (hm' : MethodGoesOn f' m')
    (hf : isIdentifier f.name = true) (hf' : isIdentifier f'.name = true)
    (hcontract : m.contract = m'.contract) : m.hookName = m'.hookName ↔ m.method = m'.method ∨
      isCapitalized m.method m'.method = true ∨ isCapitalized m'.method m.method = true := by
  obtain ⟨c, cs, hmethod, -, -, hhook⟩ := hm.hookName hf
  obtain ⟨c', cs', hmethod', -, -, hhook'⟩ := hm'.hookName hf'
  have hcapital : m.hookName = m'.hookName ↔ c.toUpper = c'.toUpper ∧ cs = cs' := by
    rw [← String.toList_inj, hhook, hhook', hcontract, List.append_right_inj, List.append_right_inj,
      List.cons.injEq]
  have hsame : m.method = m'.method ↔ c = c' ∧ cs = cs' := by
    rw [← String.toList_inj, hmethod, hmethod', List.cons.injEq]
  rw [hcapital, hsame, isCapitalized_iff hmethod hmethod', isCapitalized_iff hmethod' hmethod,
    toUpper_eq_toUpper_iff, or_and_right, or_and_right, @eq_comm _ cs' cs]

end Member

/-! ## Hooks of one contract in the module -/

/-- The hooks that a module exports for a contract have the names of its members. -/
theorem Hooks.names_of_contract {as : Artifacts} (hn : as.keys.Nodup) (h : as.HaveIdentifiers)
    {source clientModule : String} (hs : Text.IsOneLine source) (hc : Text.IsOneLine clientModule)
    {contexts : Contexts} (hw : Text.IsOneLine contexts.wallet) (hd : Text.IsOneLine contexts.dapp)
    {name : String} {a : Artifact} (ha : (name, a) ∈ as.deployable) :
    ((hooks (render (Binding.ofArtifacts as) source clientModule contexts)).filter
        (·.site.contract == name)).map (·.name) =
      (Member.ofEntries name a.entries).map (·.hookName) := by
  have hhooks : hooks (render (Binding.ofArtifacts as) source clientModule contexts) =
      as.deployable.flatMap fun p => (Member.ofEntries p.1 p.2.entries).map
        (hookText ⟨p.1, Member.ofEntries p.1 p.2.entries⟩) := by
    rw [hooks_render h.isPlain hs hc hw hd, Binding.ofArtifacts, List.flatMap_map]
  have hkey : ∀ p : String × Artifact, ∀ x ∈ (Member.ofEntries p.1 p.2.entries).map
      (hookText ⟨p.1, Member.ofEntries p.1 p.2.entries⟩), x.site.contract = p.1 := by
    intro p x hx
    obtain ⟨m, -, rfl⟩ := List.mem_map.mp hx
    rfl
  have hn' : as.deployable.keys.Nodup := Keyed.nodup_keys_filter hn _
  have hown := Keyed.filter_flatMap hkey hn' ha
  dsimp only at hown
  rw [hhooks, hown, List.map_map]
  rfl

/-! ## Distinct hooks -/

/-- **The hooks of a contract have distinct names exactly if no two of its methods differ only by a
capital letter at the front**, and these are the names under which a module exports them. -/
theorem hookNames_of_contract (contract : String) {entries : List Abi.Entry}
    (hids : ∀ f ∈ entries, f.isFunction = true → isIdentifier f.name = true) :
    (((Member.ofEntries contract entries).map (·.hookName)).Nodup ↔
      (Member.ofEntries contract entries).Pairwise fun m m' =>
        isCapitalized m.method m'.method = false ∧ isCapitalized m'.method m.method = false) ∧
    ∀ (as : Artifacts) (a : Artifact) (source clientModule : String) (contexts : Hooks.Contexts),
      as.keys.Nodup → as.HaveIdentifiers → Text.IsOneLine source → Text.IsOneLine clientModule →
      Text.IsOneLine contexts.wallet → Text.IsOneLine contexts.dapp → (contract, a) ∈ as.deployable →
      a.entries = entries →
      ((Hooks.hooks (Hooks.render (Binding.ofArtifacts as) source clientModule contexts)).filter
          (·.site.contract == contract)).map (·.name) =
        (Member.ofEntries contract entries).map (·.hookName) := by
  have hmethods : (Member.ofEntries contract entries).Pairwise fun m m' => m.method ≠ m'.method :=
    List.pairwise_map.mp (Member.build_nodup [] _).1
  have heq : ∀ m ∈ Member.ofEntries contract entries, ∀ m' ∈ Member.ofEntries contract entries,
      (m.hookName = m'.hookName ↔ m.method = m'.method ∨
        isCapitalized m.method m'.method = true ∨ isCapitalized m'.method m.method = true) := by
    intro m hm m' hm'
    obtain ⟨f, hf, hfun, hbuilt, hgoes⟩ := Member.mem_ofEntries hm
    obtain ⟨f', hf', hfun', hbuilt', hgoes'⟩ := Member.mem_ofEntries hm'
    exact Member.hookName_eq_iff hgoes hgoes' (hids f hf hfun) (hids f' hf' hfun')
      (hbuilt.contract.trans hbuilt'.contract.symm)
  refine ⟨?_, fun as a source clientModule contexts hn h hs hc hw hd ha he => ?_⟩
  · rw [List.Nodup, List.pairwise_map]
    constructor
    · refine List.Pairwise.imp_of_mem fun {m m'} hm hm' hne => ?_
      rw [Ne, heq m hm m' hm', not_or, not_or, Bool.not_eq_true, Bool.not_eq_true] at hne
      exact hne.2
    · intro hcapital
      refine (hmethods.and hcapital).imp_of_mem fun {m m'} hm hm' hne => ?_
      rw [Ne, heq m hm m' hm', not_or, not_or, Bool.not_eq_true, Bool.not_eq_true]
      exact hne
  · rw [Hooks.names_of_contract hn h hs hc hw hd ha, he]

/-- Two functions whose names differ in every letter have two hooks. -/
theorem hookNames_of_contract_shouted :
    (∀ f ∈ (markedArtifact "Token" "DEPLOYABLE").entries,
      f.isFunction = true → isIdentifier f.name = true) ∧
    ((Member.ofEntries "Token" (markedArtifact "Token" "DEPLOYABLE").entries).map (·.hookName)).Nodup ∧
    ((Hooks.hooks (Hooks.render (Binding.ofArtifacts [("Token", markedArtifact "Token" "DEPLOYABLE")])
        "Token.sol" "../Token" {})).filter (·.site.contract == "Token")).map (·.name) =
      ["useTokenDeployable", "useTokenDEPLOYABLE"] := by
  have hids : ∀ f ∈ (markedArtifact "Token" "DEPLOYABLE").entries,
      f.isFunction = true → isIdentifier f.name = true := by decide
  obtain ⟨hnodup, hexported⟩ := hookNames_of_contract "Token" hids
  have hall : Artifacts.HaveIdentifiers [("Token", markedArtifact "Token" "DEPLOYABLE")] :=
    ⟨by decide, by decide, by decide⟩
  refine ⟨hids, hnodup.mpr ?_, ?_⟩
  · decide
  · rw [hexported _ _ _ _ _ (by decide) hall (by decide) (by decide) (by decide) (by decide)
      List.mem_cons_self rfl]
    decide

/-- A function that has the name of the marker with a capital letter has its hook's name, too. -/
theorem hookNames_clash_in_contract :
    Artifact.ofAbi "Token" (markedAbi "Deployable") (.str "6001") none =
      .ok (markedArtifact "Token" "Deployable") ∧
    (∀ f ∈ (markedArtifact "Token" "Deployable").entries, isIdentifier f.name = true) ∧
    (Member.ofEntries "Token" (markedArtifact "Token" "Deployable").entries).map
        (fun m => (m.method, m.hookName)) =
      [("deployable", "useTokenDeployable"), ("Deployable", "useTokenDeployable")] ∧
    (Hooks.hooks (Hooks.render (Binding.ofArtifacts [("Token", markedArtifact "Token" "Deployable")])
        "Token.sol" "../Token" {})).map (·.name) = ["useTokenDeployable", "useTokenDeployable"] := by
  have hids : Artifacts.HaveIdentifiers [("Token", markedArtifact "Token" "Deployable")] :=
    ⟨by decide, by decide, by decide⟩
  refine ⟨rfl, by decide, by decide, ?_⟩
  rw [Hooks.hooks_render hids.isPlain (by decide) (by decide) (by decide) (by decide)]
  decide

end ContractBindings
