import ContractBindings.Proofs.Binding.PlainNames

/-!
# Entries in another order

What a member has from the other functions are counts, and these do not depend
on the order. The order plays a part only where a name is taken: if no two
functions have the same name before numbers are given, no number is ever given
(`build_eq_map`), and each function has its member wherever it stands.
-/

namespace ContractBindings.Member

variable {contract : String} {functions functions' : List Abi.Entry}

def unnumbered (contract : String) (functions : List Abi.Entry) (f : Abi.Entry) : Member where
  contract
  name := f.name
  params := f.paramNames
  payable := f.payable
  method := baseName functions f
  callKey := if isOverloaded functions f then f.signature else f.name

/-! ## Counts -/

theorem isOverloaded_perm (h : functions'.Perm functions) :
    isOverloaded functions' = isOverloaded functions := by
  funext f
  rw [isOverloaded, isOverloaded, h.countP_eq]

theorem baseName_perm (h : functions'.Perm functions) : baseName functions' = baseName functions := by
  funext f
  rw [baseName, baseName, isOverloaded_perm h]

theorem unnumbered_perm (h : functions'.Perm functions) :
    unnumbered contract functions' = unnumbered contract functions := by
  funext f
  rw [unnumbered, unnumbered, isOverloaded_perm h, baseName_perm h]

/-! ## Names that nobody takes -/

theorem freeName_of_not_mem {taken : List String} {base : String} (h : base ∉ taken) :
    freeName taken base = base :=
  (isFirstFree_freeName taken base).eq_base_iff.mpr h

/-- Functions with different base names, none of which is taken, all get them. -/
theorem build_eq_map : ∀ (taken : List String) (fs : List Abi.Entry),
    (fs.map (baseName functions)).Nodup → (∀ f ∈ fs, baseName functions f ∉ taken) →
      build contract functions taken fs = fs.map (unnumbered contract functions)
  | _, [], _, _ => rfl
  | taken, f :: fs, hbases, hfree => by
    rw [List.map_cons, List.nodup_cons] at hbases
    obtain ⟨hnew, hbases⟩ := hbases
    have hname := freeName_of_not_mem (hfree f List.mem_cons_self)
    have hrest : ∀ g ∈ fs, baseName functions g ∉ baseName functions f :: taken := by
      intro g hg
      rw [List.mem_cons, not_or]
      exact ⟨fun he => hnew (he ▸ List.mem_map_of_mem hg), hfree g (List.mem_cons_of_mem f hg)⟩
    rw [build, hname, build_eq_map _ fs hbases hrest]
    rfl

theorem ofEntries_eq_map {entries : List Abi.Entry}
    (hbases : ((entries.filter (·.isFunction)).map (baseName (entries.filter (·.isFunction)))).Nodup) :
    ofEntries contract entries =
      (entries.filter (·.isFunction)).map (unnumbered contract (entries.filter (·.isFunction))) :=
  build_eq_map [] _ hbases fun _ _ => List.not_mem_nil

/-- **Each function has one and the same member in whatever order the entries stand, if no two functions
have the same name before numbers are given.** The members then come in the order of their functions,
and the method of each is the name of its function, with the types behind it for an overload. -/
theorem ofEntries_reordered {entries entries' : List Abi.Entry}
    (horder : (entries'.filter (·.isFunction)).Perm (entries.filter (·.isFunction)))
    (hbases : ((entries.filter (·.isFunction)).map (baseName (entries.filter (·.isFunction)))).Nodup) :
    ∃ member : Abi.Entry → Member,
      ofEntries contract entries = (entries.filter (·.isFunction)).map member ∧
      ofEntries contract entries' = (entries'.filter (·.isFunction)).map member ∧
      (ofEntries contract entries').Perm (ofEntries contract entries) ∧
      ∀ f ∈ entries.filter (·.isFunction), Describes contract f (member f) ∧
        (member f).method =
          (if (entries.filter (·.isFunction)).countP (·.name == f.name) = 1 ∨ f.parameters = []
            then f.name else f.name ++ "_" ++ f.overloadSuffix) ∧
        (member f).callKey =
          (if (entries.filter (·.isFunction)).countP (·.name == f.name) = 1
            then f.name else f.signature) := by
  have hbases' :
      ((entries'.filter (·.isFunction)).map (baseName (entries'.filter (·.isFunction)))).Nodup := by
    rw [baseName_perm horder]
    exact (horder.map _).nodup_iff.mpr hbases
  have hmembers := @ofEntries_eq_map contract _ hbases
  have hmembers' := @ofEntries_eq_map contract _ hbases'
  rw [unnumbered_perm horder] at hmembers'
  refine ⟨_, hmembers, hmembers', ?_, fun f hf => ⟨⟨rfl, rfl, rfl, rfl⟩, baseName_of_mem hf, ?_⟩⟩
  · rw [hmembers, hmembers']
    exact horder.map _
  · have hiff := isOverloaded_iff hf
    cases ho : isOverloaded (entries.filter (·.isFunction)) f with
    | false => rw [unnumbered, ho, if_pos (hiff.mp ho), if_neg Bool.false_ne_true]
    | true =>
      have hcount : (entries.filter (·.isFunction)).countP (·.name == f.name) ≠ 1 := by
        rw [Ne, ← hiff, ho]
        exact Bool.noConfusion
      rw [unnumbered, ho, if_neg hcount, if_pos rfl]

def changed : Abi.Entry := ⟨"changed", [], false, .str "event"⟩

theorem ofEntries_reordered_transfers :
    ((changed :: (transfers "transfer_all").reverse).filter (·.isFunction)).Perm
      ((transfers "transfer_all").filter (·.isFunction)) ∧
    (((transfers "transfer_all").filter (·.isFunction)).map
      (baseName ((transfers "transfer_all").filter (·.isFunction)))).Nodup ∧
    (ofEntries "Token" (changed :: (transfers "transfer_all").reverse)).map (·.method) =
      ["transfer_all", "transfer_bytes32", "transfer_address"] ∧
    (ofEntries "Token" (changed :: (transfers "transfer_all").reverse)).Perm
      (ofEntries "Token" (transfers "transfer_all")) := by
  have horder : ((changed :: (transfers "transfer_all").reverse).filter (·.isFunction)).Perm
      ((transfers "transfer_all").filter (·.isFunction)) := by
    rw [List.filter_cons_of_neg (by decide), List.filter_reverse]
    exact List.reverse_perm _
  have hbases : (((transfers "transfer_all").filter (·.isFunction)).map
      (baseName ((transfers "transfer_all").filter (·.isFunction)))).Nodup := by decide +kernel
  obtain ⟨member, -, -, hperm, -⟩ := @ofEntries_reordered "Token" _ _ horder hbases
  exact ⟨horder, hbases, by decide +kernel, hperm⟩

end ContractBindings.Member
