import ContractBindings.Proofs.Binding.Methods

/-!
# Functions that share their name with no other one

Such a function is called by its name, and its method has the name too unless
a method in front of it has that name. Methods are named in the order of the
entries, and no name is kept free for a function behind, so this happens: an
overload `f(a)` has the method `f_a`, and a function `f_a` behind it is
renamed. The method in the way is not called like its own function, and if that
one is plain too, it was renamed itself. The first method of such a chain is
one of an overload (`exists_overload_of_renamed`).
-/

namespace ContractBindings.Member

variable {contract : String} {functions : List Abi.Entry}

/-! ## Names that are taken -/

theorem baseName_of_plain {f : Abi.Entry} (h : isOverloaded functions f = false) :
    baseName functions f = f.name := by
  rw [baseName, h]
  rfl

theorem IsFirstFree.eq_base_iff {taken : List String} {base name : String}
    (h : IsFirstFree taken base name) : name = base ↔ base ∉ taken := by
  obtain ⟨n, -, rfl, hfree, htaken⟩ := h
  constructor
  · intro h
    rw [← h]
    exact hfree
  · intro hbase
    cases n with
    | zero => rfl
    | succ n => exact absurd (htaken 0 n.succ_pos) hbase

theorem IsFirstFree.eq_numbered {taken : List String} {base name : String}
    (h : IsFirstFree taken base name) (hne : name ≠ base) :
    ∃ n, name = base ++ "_" ++ toString (n + 2) := by
  obtain ⟨n, -, rfl, -, -⟩ := h
  cases n with
  | zero => exact absurd rfl hne
  | succ n => exact ⟨n, rfl⟩

/-- A method that does not have the name of its function goes on from it behind an underscore. -/
theorem IsFirstFree.goes_on {taken : List String} {f : Abi.Entry} {name : String}
    (h : IsFirstFree taken (baseName functions f) name) (hne : name ≠ f.name) :
    (f.name ++ "_").toList <+: name.toList := by
  have hbase : baseName functions f = f.name ∨
      (f.name ++ "_").toList <+: (baseName functions f).toList := by
    unfold baseName
    split
    · exact .inr ⟨f.overloadSuffix.toList, by simp⟩
    · exact .inl rfl
  by_cases hplain : name = baseName functions f
  · rw [hplain] at hne ⊢
    exact hbase.resolve_left hne
  · obtain ⟨n, rfl⟩ := h.eq_numbered hplain
    rcases hbase with hbase | hbase
    · rw [hbase]
      exact ⟨(toString (n + 2)).toList, by simp⟩
    · exact hbase.trans ⟨("_" ++ toString (n + 2)).toList, by simp⟩

/-! ## Who took a name -/

theorem mem_take_of_lt {α : Type} {l : List α} {i j : Nat} {a : α} (hij : i < j)
    (ha : l[i]? = some a) : a ∈ l.take j :=
  List.mem_of_getElem? (i := i) (by rw [List.getElem?_take_of_lt hij, ha])

theorem exists_at_of_mem_take {α : Type} {l : List α} {i : Nat} {a : α} (h : a ∈ l.take i) :
    ∃ j < i, l[j]? = some a := by
  obtain ⟨j, hj⟩ := List.mem_iff_getElem?.mp h
  have hji : j < i := by
    by_contra hij
    rw [List.getElem?_take_eq_none (Nat.le_of_not_lt hij)] at hj
    cases hj
  rw [List.getElem?_take_of_lt hji] at hj
  exact ⟨j, hji, hj⟩

theorem two_le_countP {α : Type} {p : α → Bool} {l : List α} {i j : Nat} {a b : α} (hij : i < j)
    (ha : l[i]? = some a) (hb : l[j]? = some b) (hpa : p a = true) (hpb : p b = true) :
    2 ≤ l.countP p := by
  have hfront : 0 < (l.take j).countP p :=
    List.countP_pos_iff.mpr ⟨a, mem_take_of_lt hij ha, hpa⟩
  have hback : 0 < (l.drop j).countP p := by
    refine List.countP_pos_iff.mpr ⟨b, List.mem_of_getElem? (i := 0) ?_, hpb⟩
    rw [List.getElem?_drop, Nat.add_zero, hb]
  rw [← List.take_append_drop j l, List.countP_append]
  omega

section
variable {entries : List Abi.Entry}

theorem builtFrom_at {i : Nat} {f : Abi.Entry} {m : Member}
    (hf : (entries.filter (·.isFunction))[i]? = some f) (hm : (ofEntries contract entries)[i]? = some m) :
    BuiltFrom contract (entries.filter (·.isFunction)) f m := by
  obtain ⟨hi, rfl⟩ := List.getElem?_eq_some_iff.mp hf
  obtain ⟨hi', rfl⟩ := List.getElem?_eq_some_iff.mp hm
  exact (ofEntries_builtFrom contract entries).get hi hi'

/-- A method that stands in front was built from a function that stands in front. -/
theorem exists_function_of_mem_take {i : Nat} {name : String}
    (h : name ∈ ((ofEntries contract entries).take i).map (·.method)) :
    ∃ j < i, ∃ g n, (entries.filter (·.isFunction))[j]? = some g ∧
      (ofEntries contract entries)[j]? = some n ∧ n.method = name := by
  obtain ⟨n, hn, rfl⟩ := List.mem_map.mp h
  obtain ⟨j, hji, hj⟩ := exists_at_of_mem_take hn
  have hlen := (ofEntries_builtFrom contract entries).length_eq
  obtain ⟨hlt, -⟩ := List.getElem?_eq_some_iff.mp hj
  exact ⟨j, hji, _, n, List.getElem?_eq_getElem (hlen ▸ hlt), hj, rfl⟩

/-- In front of a renamed function there is an overload whose name that of the function goes on from. -/
theorem exists_overload_of_renamed : ∀ {i : Nat} {f : Abi.Entry} {m : Member},
    (entries.filter (·.isFunction))[i]? = some f → (ofEntries contract entries)[i]? = some m →
      isOverloaded (entries.filter (·.isFunction)) f = false → m.method ≠ f.name →
      ∃ g ∈ (entries.filter (·.isFunction)).take i,
        isOverloaded (entries.filter (·.isFunction)) g = true ∧
          (g.name ++ "_").toList <+: f.name.toList := by
  intro i
  induction i using Nat.strongRecOn with
  | ind i ih =>
    intro f m hf hm hplain hne
    have hfree := ofEntries_isFirstFree hf hm
    rw [baseName_of_plain hplain] at hfree
    have htaken : f.name ∈ ((ofEntries contract entries).take i).map (·.method) := by
      by_contra htaken
      exact hne (hfree.eq_base_iff.mpr htaken)
    obtain ⟨j, hji, g, n, hg, hn, hmethod⟩ := exists_function_of_mem_take htaken
    -- the name is plain, so it was not the name of the function that took it
    have hgne : f.name ≠ g.name := by
      intro he
      have hcount := two_le_countP (p := (·.name == f.name)) hji hg hf (by simp [he]) (by simp)
      rw [isOverloaded, decide_eq_false_iff_not] at hplain
      exact hplain hcount
    have hgoes : (g.name ++ "_").toList <+: f.name.toList := by
      have h := (ofEntries_isFirstFree hg hn).goes_on (by rw [hmethod]; exact hgne)
      rwa [hmethod] at h
    cases ho : isOverloaded (entries.filter (·.isFunction)) g with
    | true => exact ⟨g, mem_take_of_lt hji hg, ho, hgoes⟩
    | false =>
      obtain ⟨g', hg', ho', hgoes'⟩ := ih j hji hg hn ho (by rw [hmethod]; exact hgne)
      refine ⟨g', (List.take_prefix_take_left (Nat.le_of_lt hji)).subset hg', ho', hgoes'.trans ?_⟩
      rw [String.toList_append] at hgoes
      exact (List.prefix_append _ _).trans hgoes

/-- **A function that shares its name with no other one is called by its name, and so is its method
unless a method in front has that name.** Then the method has a number behind the name, and the name
goes on, behind an underscore, from that of an overload in front. -/
theorem plain_method {i : Nat} {f : Abi.Entry} {m : Member}
    (hf : (entries.filter (·.isFunction))[i]? = some f) (hm : (ofEntries contract entries)[i]? = some m)
    (hplain : (entries.filter (·.isFunction)).countP (·.name == f.name) = 1) :
    m.callKey = f.name ∧
    (m.method = f.name ↔ f.name ∉ ((ofEntries contract entries).take i).map (·.method)) ∧
    (m.method ≠ f.name → (∃ n, m.method = f.name ++ "_" ++ toString (n + 2)) ∧
      ∃ g ∈ (entries.filter (·.isFunction)).take i,
        1 < (entries.filter (·.isFunction)).countP (·.name == g.name) ∧
          (g.name ++ "_").toList <+: f.name.toList) := by
  have ho := (isOverloaded_iff (List.mem_of_getElem? hf)).mpr hplain
  have hfree := ofEntries_isFirstFree hf hm
  rw [baseName_of_plain ho] at hfree
  have hkey : m.callKey = f.name := by
    rw [(builtFrom_at hf hm).callKey, ho]
    rfl
  refine ⟨hkey, hfree.eq_base_iff, fun hne => ⟨hfree.eq_numbered hne, ?_⟩⟩
  obtain ⟨g, hg, ho', hgoes⟩ := exists_overload_of_renamed hf hm ho hne
  exact ⟨g, hg, of_decide_eq_true ho', hgoes⟩

end

def transfers (plain : String) : List Abi.Entry := [
  ⟨"transfer", [⟨"to", .elementary "address"⟩], false, Abi.Entry.functionKind⟩,
  ⟨"transfer", [⟨"to", .elementary "bytes32"⟩], false, Abi.Entry.functionKind⟩,
  ⟨plain, [], false, Abi.Entry.functionKind⟩]

theorem plain_method_transfers : ∃ f m,
    ((transfers "transfer_all").filter (·.isFunction))[2]? = some f ∧
    (ofEntries "Token" (transfers "transfer_all"))[2]? = some m ∧
    ((transfers "transfer_all").filter (·.isFunction)).countP (·.name == f.name) = 1 ∧
    m.callKey = "transfer_all" ∧ m.method = "transfer_all" := by
  have hfree : "transfer_all" ∉ ((ofEntries "Token" (transfers "transfer_all")).take 2).map
      (·.method) := by decide +kernel
  obtain ⟨hcall, hmethod, -⟩ :=
    @plain_method "Token" (transfers "transfer_all") 2 _ _ rfl rfl (by decide)
  exact ⟨_, _, rfl, rfl, by decide, hcall, hmethod.mpr hfree⟩

/-- Behind the overload that has its name for a method, a function is renamed. -/
theorem plain_method_renamed :
    ((transfers "transfer_address").filter (·.isFunction)).countP (·.name == "transfer_address") = 1 ∧
    (ofEntries "Token" (transfers "transfer_address")).map
        (fun m => (m.name, m.method, m.callKey)) = [
      ("transfer", "transfer_address", "transfer(address)"),
      ("transfer", "transfer_bytes32", "transfer(bytes32)"),
      ("transfer_address", "transfer_address_2", "transfer_address")] := by
  decide +kernel

end ContractBindings.Member
