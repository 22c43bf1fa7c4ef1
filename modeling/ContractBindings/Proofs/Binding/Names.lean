import ContractBindings.Proofs.Binding.Members
import ContractBindings.Proofs.Text.Lines

/-!
# Names of methods and hooks

A method's name is the name of its function with something behind it, made of
letters, numerals and underscores. A hook's name is that of the contract and
of the method, with an upper-case first letter where there is one.
-/

namespace ContractBindings

/-! ## Identifiers -/

def isNameStart (c : Char) : Bool := c.isAlpha || c = '_' || c = '$'

def isNamePart (c : Char) : Bool := c.isAlphanum || c = '_' || c = '$'

def isIdentifier (s : String) : Bool :=
  match s.toList with
  | [] => false
  | c :: cs => isNameStart c && cs.all isNamePart

theorem isIdentifier_iff {s : String} : isIdentifier s = true ↔
    ∃ c cs, s.toList = c :: cs ∧ isNameStart c = true ∧ ∀ d ∈ cs, isNamePart d = true := by
  unfold isIdentifier
  cases s.toList with
  | nil => simp
  | cons c cs => simp

theorem isNamePart_of_isNameStart {c : Char} (h : isNameStart c = true) : isNamePart c = true := by
  simp only [isNameStart, isNamePart, Char.isAlphanum, Bool.or_eq_true] at h ⊢
  tauto

theorem isNamePart_of_mem {s : String} (h : isIdentifier s = true) :
    ∀ c ∈ s.toList, isNamePart c = true := by
  obtain ⟨c, cs, hs, hc, hcs⟩ := isIdentifier_iff.mp h
  intro d hd
  rw [hs] at hd
  rcases List.mem_cons.mp hd with rfl | hd
  · exact isNamePart_of_isNameStart hc
  · exact hcs d hd

theorem not_mem_of_isIdentifier {s : String} (h : isIdentifier s = true) {c : Char}
    (hc : isNamePart c = false) : c ∉ s.toList := by
  intro hm
  have := isNamePart_of_mem h c hm
  rw [hc] at this
  cases this

theorem toNat_lt_of_isAlpha {c : Char} (h : c.isAlpha = true) : c.toNat < 128 := by
  have hval : c.val.toNat = c.toNat := rfl
  have hZ : 'Z'.val.toNat = 90 := rfl
  have hz : 'z'.val.toNat = 122 := rfl
  rcases Bool.or_eq_true_iff.mp h with h | h
  · have hle := UInt32.le_iff_toNat_le.mp (of_decide_eq_true h).2
    omega
  · have hle := UInt32.le_iff_toNat_le.mp (of_decide_eq_true (Bool.and_eq_true_iff.mp h).2)
    omega

theorem val_lt_of_isDigit {c : Char} (h : c.isDigit = true) : c.val < 128 := by
  simp only [Char.isDigit, Bool.and_eq_true, decide_eq_true_eq, UInt32.le_iff_toNat_le] at h
  have h9 : '9'.val.toNat = 57 := rfl
  have h128 : (128 : UInt32).toNat = 128 := rfl
  rw [UInt32.lt_iff_toNat_lt]
  omega

theorem toNat_lt_of_isNameStart {c : Char} (h : isNameStart c = true) : c.toNat < 128 := by
  simp only [isNameStart, Bool.or_eq_true, decide_eq_true_eq] at h
  rcases h with (h | rfl) | rfl
  · exact toNat_lt_of_isAlpha h
  · decide
  · decide

/-- The upper-case form of a first letter is one character, and no lower-case letter. -/
theorem uppercase_of_isNameStart {c : Char} (h : isNameStart c = true) :
    Text.uppercase c = [c.toUpper] ∧ isNameStart c.toUpper = true ∧ c.toUpper.isLower = false := by
  have hlt := toNat_lt_of_isNameStart h
  have hascii : ∀ n < 128, isNameStart (Char.ofNat n) = true →
      isNameStart (Char.ofNat n).toUpper = true ∧ (Char.ofNat n).toUpper.isLower = false := by
    decide
  have hval : c.val < 128 := by
    rw [UInt32.lt_iff_toNat_lt]
    exact hlt
  have hc := hascii c.toNat hlt
  rw [Char.ofNat_toNat] at hc
  obtain ⟨hstart, hlower⟩ := hc h
  exact ⟨by rw [Text.uppercase, if_pos hval], hstart, hlower⟩

/-! ## Names of methods -/

def isSuffixChar (c : Char) : Bool := Text.isAlphanumeric c || c = '_'

namespace Member

theorem isSuffixChar_nameChar (c : Char) : isSuffixChar (Abi.Entry.nameChar c) = true := by
  unfold Abi.Entry.nameChar
  split
  · next h => exact h
  · rfl

theorem isSuffixChar_of_isDigit {c : Char} (h : c.isDigit = true) : isSuffixChar c = true := by
  simp [isSuffixChar, Text.isAlphanumeric, val_lt_of_isDigit h, Char.isAlphanum, h]

theorem toList_baseName (functions : List Abi.Entry) (f : Abi.Entry) :
    ∃ more, (baseName functions f).toList = f.name.toList ++ more ∧
      ∀ c ∈ more, isSuffixChar c = true := by
  unfold baseName
  split
  · refine ⟨'_' :: f.overloadSuffix.toList, by simp, ?_⟩
    intro c hc
    rcases List.mem_cons.mp hc with rfl | hc
    · rfl
    · rw [Abi.Entry.overloadSuffix, String.toList_ofList] at hc
      obtain ⟨d, -, rfl⟩ := List.mem_map.mp hc
      exact isSuffixChar_nameChar d
  · exact ⟨[], by simp, by simp⟩

theorem toList_candidate (base : String) (n : Nat) :
    ∃ more, (candidate base n).toList = base.toList ++ more ∧ ∀ c ∈ more, isSuffixChar c = true := by
  cases n with
  | zero => exact ⟨[], by simp [candidate], by simp⟩
  | succ n =>
    refine ⟨'_' :: Nat.toDigits 10 (n + 2), ?_, ?_⟩
    · simp [candidate]
    · intro c hc
      rcases List.mem_cons.mp hc with rfl | hc
      · rfl
      · exact isSuffixChar_of_isDigit (Nat.isDigit_of_mem_toDigits (by decide) (by decide) hc)

theorem freeName_eq_candidate (taken : List String) (base : String) :
    ∃ n, freeName taken base = candidate base n := by
  unfold freeName
  cases hf : ((List.range (taken.length + 1)).map (candidate base)).find? (!taken.contains ·) with
  | none => exact ⟨0, rfl⟩
  | some name =>
    obtain ⟨n, -, hn⟩ := List.mem_map.mp (List.mem_of_find?_eq_some hf)
    exact ⟨n, hn.symm⟩

theorem toList_freeName (taken : List String) (functions : List Abi.Entry) (f : Abi.Entry) :
    ∃ more, (freeName taken (baseName functions f)).toList = f.name.toList ++ more ∧
      ∀ c ∈ more, isSuffixChar c = true := by
  obtain ⟨n, hn⟩ := freeName_eq_candidate taken (baseName functions f)
  obtain ⟨number, hnumber, hn'⟩ := toList_candidate (baseName functions f) n
  obtain ⟨suffix, hsuffix, hs⟩ := toList_baseName functions f
  refine ⟨suffix ++ number, by rw [hn, hnumber, hsuffix, List.append_assoc], ?_⟩
  intro c hc
  rcases List.mem_append.mp hc with hc | hc
  · exact hs c hc
  · exact hn' c hc

def MethodGoesOn (f : Abi.Entry) (m : Member) : Prop :=
  ∃ more, m.method.toList = f.name.toList ++ more ∧ ∀ c ∈ more, isSuffixChar c = true

theorem build_methods (contract : String) (functions : List Abi.Entry) :
    ∀ (taken : List String) (fs : List Abi.Entry),
      List.Forall₂ MethodGoesOn fs (build contract functions taken fs)
  | _, [] => .nil
  | taken, f :: fs => .cons (toList_freeName taken functions f) (build_methods contract functions _ fs)

theorem mem_ofEntries {contract : String} {entries : List Abi.Entry} {m : Member}
    (hm : m ∈ ofEntries contract entries) :
    ∃ f ∈ entries, f.isFunction = true ∧ BuiltFrom contract (entries.filter (·.isFunction)) f m ∧
      MethodGoesOn f m := by
  have hbuilt := ofEntries_builtFrom contract entries
  have hmethods := build_methods contract (entries.filter (·.isFunction)) [] (entries.filter (·.isFunction))
  obtain ⟨i, hi, rfl⟩ := List.mem_iff_getElem.mp hm
  have hlen := hbuilt.length_eq
  have hi' : i < (entries.filter (·.isFunction)).length := hlen ▸ hi
  obtain ⟨hmem, hfun⟩ := List.mem_filter.mp (List.getElem_mem hi')
  exact ⟨_, hmem, hfun, hbuilt.get hi' hi, hmethods.get hi' hi⟩

/-! ## Names of hooks -/

theorem MethodGoesOn.not_mem {f : Abi.Entry} {m : Member} (h : MethodGoesOn f m)
    (hf : isIdentifier f.name = true) {c : Char} (hpart : isNamePart c = false)
    (hsuffix : isSuffixChar c = false) : c ∉ m.method.toList := by
  obtain ⟨more, hmore, hchars⟩ := h
  rw [hmore, List.mem_append, not_or]
  refine ⟨not_mem_of_isIdentifier hf hpart, fun hc => ?_⟩
  rw [hchars c hc] at hsuffix
  cases hsuffix

/-- The name of a hook is that of the contract and that of the method, whose first letter is now no
lower-case one. -/
theorem MethodGoesOn.hookName {f : Abi.Entry} {m : Member} (h : MethodGoesOn f m)
    (hf : isIdentifier f.name = true) :
    ∃ c cs, m.method.toList = c :: cs ∧ isNameStart c.toUpper = true ∧ c.toUpper.isLower = false ∧
      m.hookName.toList = "use".toList ++ (m.contract.toList ++ c.toUpper :: cs) := by
  obtain ⟨more, hmore, -⟩ := h
  obtain ⟨c, cs, hname, hc, -⟩ := isIdentifier_iff.mp hf
  obtain ⟨hupper, hstart, hlower⟩ := uppercase_of_isNameStart hc
  have hmethod : m.method.toList = c :: (cs ++ more) := by rw [hmore, hname, List.cons_append]
  refine ⟨c, cs ++ more, hmethod, hstart, hlower, ?_⟩
  unfold Member.hookName
  simp only [hmethod, hupper, String.toList_append, String.toList_ofList, List.append_assoc,
    List.cons_append, List.nil_append]

theorem MethodGoesOn.not_mem_hookName {f : Abi.Entry} {m : Member} (h : MethodGoesOn f m)
    (hf : isIdentifier f.name = true) (hcontract : isIdentifier m.contract = true) {c : Char}
    (hpart : isNamePart c = false) (hsuffix : isSuffixChar c = false) : c ∉ m.hookName.toList := by
  obtain ⟨d, ds, hmethod, hstart, -, hhook⟩ := h.hookName hf
  have hmem := h.not_mem hf hpart hsuffix
  rw [hmethod, List.mem_cons, not_or] at hmem
  rw [hhook, List.mem_append, List.mem_append, List.mem_cons, not_or, not_or, not_or]
  refine ⟨?_, not_mem_of_isIdentifier hcontract hpart, ?_, hmem.2⟩
  · exact not_mem_of_isIdentifier (by decide : isIdentifier "use" = true) hpart
  · rintro rfl
    rw [isNamePart_of_isNameStart hstart] at hpart
    cases hpart

end Member

end ContractBindings
