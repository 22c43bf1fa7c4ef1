import ContractBindings.Proofs.Binding.Members
import Mathlib.Data.List.Nodup
import Mathlib.Data.List.Perm.Subperm

/-!
# Methods of a contract

A method gets the plain name of its function, or the first of the numbered
ones that no method before it has. Since the candidates differ from each other,
the taken names cannot hold them all, so there is always a first one. What the
functions in front have taken grows by one name per member, and the invariant
is that no name is taken twice.
-/

namespace ContractBindings.Member

/-! ## Candidates -/

theorem candidate_injective (base : String) : Function.Injective (candidate base) := by
  -- with its number a name is longer than the plain one
  have hplain : ∀ n, base ≠ candidate base (n + 1) := by
    intro n h
    have hlen := congrArg String.length h
    have hmark : "_".length = 1 := rfl
    simp only [candidate, String.length_append] at hlen
    omega
  intro i j h
  match i, j with
  | 0, 0 => rfl
  | 0, j + 1 => exact absurd h (hplain j)
  | i + 1, 0 => exact absurd h.symm (hplain i)
  | i + 1, j + 1 =>
    have hnumber : (i + 2).repr = (j + 2).repr := (String.append_right_inj _).mp h
    have hdigits := congrArg String.toList hnumber
    rw [Nat.toList_repr, Nat.toList_repr] at hdigits
    have hij := congrArg (fun ds => Nat.ofDigitChars 10 ds 0) hdigits
    simpa using hij

/-- Among one more candidates than there are taken names, one is free. -/
theorem exists_candidate_not_mem (taken : List String) (base : String) :
    ∃ n ≤ taken.length, candidate base n ∉ taken := by
  by_contra hall
  simp only [not_exists, not_and, not_not] at hall
  have hsub : (List.range (taken.length + 1)).map (candidate base) ⊆ taken := by
    intro name hname
    obtain ⟨n, hn, rfl⟩ := List.mem_map.mp hname
    exact hall n (Nat.le_of_lt_succ (List.mem_range.mp hn))
  have hnodup : ((List.range (taken.length + 1)).map (candidate base)).Nodup :=
    List.Nodup.map (candidate_injective base) List.nodup_range
  have hlen := hnodup.length_le_of_subset hsub
  rw [List.length_map, List.length_range] at hlen
  omega

def IsFirstFree (taken : List String) (base name : String) : Prop :=
  ∃ n ≤ taken.length, name = candidate base n ∧ name ∉ taken ∧ ∀ k < n, candidate base k ∈ taken

theorem IsFirstFree.of_perm {taken taken' : List String} {base name : String}
    (hp : taken.Perm taken') (h : IsFirstFree taken base name) : IsFirstFree taken' base name := by
  obtain ⟨n, hn, rfl, hfree, htaken⟩ := h
  exact ⟨n, hp.length_eq ▸ hn, rfl, fun hm => hfree (hp.mem_iff.mpr hm),
    fun k hk => hp.mem_iff.mp (htaken k hk)⟩

theorem isFirstFree_freeName (taken : List String) (base : String) :
    IsFirstFree taken base (freeName taken base) := by
  unfold freeName
  rw [List.find?_map]
  cases hf : (List.range (taken.length + 1)).find? ((!taken.contains ·) ∘ candidate base) with
  | none =>
    obtain ⟨n, hn, hfree⟩ := exists_candidate_not_mem taken base
    have htaken := List.find?_eq_none.mp hf n (List.mem_range.mpr (Nat.lt_succ_of_le hn))
    simp [hfree] at htaken
  | some n =>
    obtain ⟨hfree, hn, hbefore⟩ := List.find?_range_eq_some.mp hf
    refine ⟨n, Nat.le_of_lt_succ (List.mem_range.mp hn), rfl, by simpa using hfree, fun k hk => ?_⟩
    simpa using hbefore k hk

/-! ## The methods in order -/

variable {contract : String} {functions : List Abi.Entry}

/-- No method has a name that was taken before, and no two methods have the same name. -/
theorem build_nodup : ∀ (taken : List String) (fs : List Abi.Entry),
    ((build contract functions taken fs).map (·.method)).Nodup ∧
      ∀ m ∈ build contract functions taken fs, m.method ∉ taken
  | _, [] => by simp [build]
  | taken, f :: fs => by
    obtain ⟨-, -, -, hfree, -⟩ := isFirstFree_freeName taken (baseName functions f)
    obtain ⟨hnodup, hrest⟩ :=
      build_nodup (freeName taken (baseName functions f) :: taken) fs
    rw [build, List.map_cons, List.nodup_cons]
    refine ⟨⟨fun hm => ?_, hnodup⟩, fun m hm => ?_⟩
    · obtain ⟨m, hm, he⟩ := List.mem_map.mp hm
      exact hrest m hm (he ▸ List.mem_cons_self)
    · rcases List.mem_cons.mp hm with rfl | hm
      · exact hfree
      · exact fun ht => hrest m hm (List.mem_cons_of_mem _ ht)

/-- The method of a member is the first free candidate behind those that were taken at the start and
those of the members in front. -/
theorem build_isFirstFree : ∀ (taken : List String) (fs : List Abi.Entry) (i : Nat) (f : Abi.Entry)
    (m : Member), fs[i]? = some f → (build contract functions taken fs)[i]? = some m →
      IsFirstFree (((build contract functions taken fs).take i).map (·.method) ++ taken)
        (baseName functions f) m.method
  | _, [], _, _, _, hf, _ => by cases hf
  | taken, _ :: _, 0, _, _, hf, hm => by
    cases hf
    cases hm
    exact isFirstFree_freeName taken _
  | taken, _ :: fs, i + 1, f, m, hf, hm => by
    have h := build_isFirstFree _ fs i f m hf hm
    exact h.of_perm List.perm_middle

structure Describes (contract : String) (f : Abi.Entry) (m : Member) : Prop where
  contract : m.contract = contract
  name : m.name = f.name
  payable : m.payable = f.payable
  params : m.params = f.parameters.map (fun p => p.shape.typeName ++ "_" ++ p.name) ++
    if f.payable then ["overrides"] else []

structure Names (contract : String) (functions : List Abi.Entry) (members : List Member) : Prop where
  described : List.Forall₂ (Describes contract) functions members
  distinct : (members.map (·.method)).Nodup
  base : ∀ f ∈ functions, baseName functions f =
    if functions.countP (·.name == f.name) = 1 ∨ f.parameters = [] then f.name
    else f.name ++ "_" ++ f.overloadSuffix
  method : ∀ (i : Nat) (f : Abi.Entry) (m : Member), functions[i]? = some f → members[i]? = some m →
    IsFirstFree ((members.take i).map (·.method)) (baseName functions f) m.method

theorem baseName_of_mem {f : Abi.Entry} (hf : f ∈ functions) : baseName functions f =
    if functions.countP (·.name == f.name) = 1 ∨ f.parameters = [] then f.name
    else f.name ++ "_" ++ f.overloadSuffix := by
  unfold baseName
  cases ho : isOverloaded functions f with
  | false => simp [(isOverloaded_iff hf).mp ho]
  | true =>
    have hcount : functions.countP (·.name == f.name) ≠ 1 := by
      intro h
      rw [(isOverloaded_iff hf).mpr h] at ho
      cases ho
    cases hp : f.parameters with
    | nil => simp
    | cons p ps => simp [hcount]

theorem ofEntries_isFirstFree {entries : List Abi.Entry} {i : Nat} {f : Abi.Entry} {m : Member}
    (hf : (entries.filter (·.isFunction))[i]? = some f) (hm : (ofEntries contract entries)[i]? = some m) :
    IsFirstFree (((ofEntries contract entries).take i).map (·.method))
      (baseName (entries.filter (·.isFunction)) f) m.method := by
  have h := build_isFirstFree [] _ i f m hf hm
  rwa [List.append_nil] at h

/-- **Every function of a contract has one method, and no two have the same.** A method has the plain
name of its function, or the first of the numbered names that no method before it has. -/
theorem ofEntries_names (contract : String) (entries : List Abi.Entry) :
    Names contract (entries.filter (·.isFunction)) (ofEntries contract entries) where
  described := (ofEntries_builtFrom contract entries).imp fun _ _ h =>
    ⟨h.contract, h.name, h.payable, h.params⟩
  distinct := (build_nodup [] _).1
  base _ := baseName_of_mem
  method _ _ _ := ofEntries_isFirstFree

/-- A numbered name can be the plain name of another function, which then gets a number itself. -/
example : (ofEntries "Pair" [⟨"f", [⟨"", .elementary "a"⟩], false, .str "function"⟩,
      ⟨"f", [⟨"", .elementary "a"⟩, ⟨"", .elementary "2"⟩], false, .str "function"⟩,
      ⟨"f", [⟨"x", .elementary "a"⟩], false, .str "function"⟩]).map (·.method) =
    ["f_a", "f_a_2", "f_a_3"] := by
  decide +kernel

end ContractBindings.Member
