import ContractBindings.Proofs.Binding.ContractHooks
import ContractBindings.Proofs.Binding.PlainNames
import ContractBindings.Proofs.Json.RoundTrip

/-!
# Names that are fit for code

What makes up the name of a method is in ASCII if the name of the function and
its types are. Whatever else the types hold has become an underscore there, so
the names of methods and hooks are identifiers. The key of an overload keeps all
of it, and is had again from its literal.
-/

namespace ContractBindings

def isAscii (s : String) : Bool := s.toList.all (·.val < 128)

theorem isAscii_iff {s : String} : isAscii s = true ↔ ∀ c ∈ s.toList, c.val < 128 := by
  simp [isAscii]

theorem isAscii_append {s t : String} (hs : isAscii s = true) (ht : isAscii t = true) :
    isAscii (s ++ t) = true := by
  rw [isAscii, String.toList_append, List.all_append]
  exact Bool.and_eq_true_iff.mpr ⟨hs, ht⟩

theorem isAscii_of_isIdentifier {s : String} (h : isIdentifier s = true) : isAscii s = true := by
  rw [isAscii_iff]
  intro c hc
  have hpart := isNamePart_of_mem h c hc
  by_cases hd : c.isDigit = true
  · exact val_lt_of_isDigit hd
  · refine UInt32.lt_iff_toNat_lt.mpr (toNat_lt_of_isNameStart ?_)
    simpa [isNamePart, isNameStart, Char.isAlphanum, hd] using hpart

theorem isAscii_number (n : Nat) : isAscii (toString n) = true := by
  rw [isAscii_iff]
  intro c hc
  have hdigits : (toString n).toList = Nat.toDigits 10 n := by simp
  rw [hdigits] at hc
  exact val_lt_of_isDigit (Nat.isDigit_of_mem_toDigits (by decide) (by decide) hc)

/-- In ASCII the letters and numerals of all scripts are those of identifiers. -/
theorem isNamePart_of_isSuffixChar {c : Char} (h : isSuffixChar c = true) (hlt : c.val < 128) :
    isNamePart c = true := by
  rw [isSuffixChar, Text.isAlphanumeric, if_pos hlt] at h
  rw [isNamePart, h]
  rfl

/-- A name may go on with any of these characters. -/
theorem isIdentifier_of_goesOn {s t : String} {more : List Char} (hs : isIdentifier s = true)
    (ht : t.toList = s.toList ++ more) (hmore : ∀ c ∈ more, isNamePart c = true) :
    isIdentifier t = true := by
  obtain ⟨c, cs, hname, hstart, hparts⟩ := isIdentifier_iff.mp hs
  refine isIdentifier_iff.mpr ⟨c, cs ++ more, by rw [ht, hname, List.cons_append], hstart, ?_⟩
  intro d hd
  rcases List.mem_append.mp hd with hd | hd
  · exact hparts d hd
  · exact hmore d hd

/-- No letter has a dollar sign for its capital. -/
theorem eq_dollar_of_toUpper {c : Char} (h : c.toUpper = '$') : c = '$' := by
  cases hc : c.isLower with
  | false => rwa [toUpper_of_not_isLower hc] at h
  | true =>
    have hval := val_toUpper_of_isLower hc
    rw [h] at hval
    have hd : c.val = 68 := by
      rw [← UInt32.add_left_inj ('A'.val - 'a'.val), ← hval]
      rfl
    have hrange := (isLower_iff.mp hc).1
    rw [hd] at hrange
    exact absurd hrange (by decide)

namespace Abi.Entry

theorem isAscii_intercalate {sep : String} (hsep : isAscii sep = true) : ∀ {ss : List String},
    (∀ s ∈ ss, isAscii s = true) → isAscii (sep.intercalate ss) = true
  | [], _ => rfl
  | [s], h => by
    rw [String.intercalate_singleton]
    exact h s List.mem_cons_self
  | s :: t :: ss, h => by
    rw [String.intercalate_cons_cons]
    refine isAscii_append (isAscii_append (h s List.mem_cons_self) hsep) ?_
    exact isAscii_intercalate hsep fun u hu => h u (List.mem_cons_of_mem s hu)

theorem isAscii_overloadSuffix {e : Abi.Entry}
    (h : ∀ p ∈ e.parameters, isAscii p.shape.canonical = true) : isAscii e.overloadSuffix = true := by
  have htypes : isAscii ("_".intercalate (e.shapes.map (·.canonical))) = true := by
    refine isAscii_intercalate (by decide) fun s hs => ?_
    obtain ⟨shape, hshape, rfl⟩ := List.mem_map.mp hs
    obtain ⟨p, hp, rfl⟩ := List.mem_map.mp hshape
    exact h p hp
  rw [isAscii_iff, overloadSuffix, String.toList_ofList]
  intro c hc
  obtain ⟨d, hd, rfl⟩ := List.mem_map.mp hc
  unfold nameChar
  split
  · exact isAscii_iff.mp htypes d hd
  · decide

end Abi.Entry

namespace Member

variable {contract : String} {functions entries : List Abi.Entry}

theorem isAscii_candidate {base : String} (h : isAscii base = true) :
    ∀ n, isAscii (candidate base n) = true
  | 0 => h
  | n + 1 => isAscii_append (isAscii_append h (by decide)) (isAscii_number (n + 2))

theorem isAscii_baseName {f : Abi.Entry} (hname : isAscii f.name = true)
    (htypes : ∀ p ∈ f.parameters, isAscii p.shape.canonical = true) :
    isAscii (baseName functions f) = true := by
  unfold baseName
  split
  · exact isAscii_append (isAscii_append hname (by decide)) (Abi.Entry.isAscii_overloadSuffix htypes)
  · exact hname

theorem exists_at_of_mem {m : Member} (hm : m ∈ ofEntries contract entries) :
    ∃ (i : Nat) (f : Abi.Entry), (entries.filter (·.isFunction))[i]? = some f ∧
      (ofEntries contract entries)[i]? = some m := by
  obtain ⟨i, hi, rfl⟩ := List.mem_iff_getElem.mp hm
  have hlen := (ofEntries_builtFrom contract entries).length_eq
  exact ⟨i, _, List.getElem?_eq_getElem (hlen ▸ hi), List.getElem?_eq_getElem hi⟩

structure HavePlainNames (entries : List Abi.Entry) : Prop where
  names : ∀ f ∈ entries, f.isFunction = true → isIdentifier f.name = true
  types : ∀ f ∈ entries, f.isFunction = true → ∀ p ∈ f.parameters, isAscii p.shape.canonical = true

structure IsSafe (m : Member) : Prop where
  method : isIdentifier m.method = true
  hookName : isIdentifier m.hookName = true
  goesOn : m.method = m.name ∨ (m.name ++ "_").toList <+: m.method.toList
  dollar : '$' ∈ m.method.toList ∨ '$' ∈ m.hookName.toList →
    '$' ∈ m.contract.toList ∨ '$' ∈ m.name.toList
  call : m.callKey = m.name ∧ m.callExpr = "this.contract." ++ m.name ∨
    m.callKey ≠ m.name ∧ ∃ literal, m.callExpr = "this.contract[" ++ literal ++ "]"
  literal : ∀ literal, m.callExpr = "this.contract[" ++ literal ++ "]" →
    Json.read literal.toList = .ok (.str m.callKey)

section
variable {i : Nat} {f : Abi.Entry} {m : Member}

theorem isAscii_method (h : HavePlainNames entries) (hf : (entries.filter (·.isFunction))[i]? = some f)
    (hm : (ofEntries contract entries)[i]? = some m) : isAscii m.method = true := by
  obtain ⟨n, -, hmethod, -, -⟩ := ofEntries_isFirstFree hf hm
  obtain ⟨hmem, hfun⟩ := List.mem_filter.mp (List.mem_of_getElem? hf)
  rw [hmethod]
  refine isAscii_candidate (isAscii_baseName ?_ (h.types f hmem hfun)) n
  exact isAscii_of_isIdentifier (h.names f hmem hfun)

theorem methodGoesOn_at (hf : (entries.filter (·.isFunction))[i]? = some f)
    (hm : (ofEntries contract entries)[i]? = some m) : MethodGoesOn f m := by
  obtain ⟨hi, rfl⟩ := List.getElem?_eq_some_iff.mp hf
  obtain ⟨hi', rfl⟩ := List.getElem?_eq_some_iff.mp hm
  exact (build_methods contract _ [] _).get hi hi'

/-- What a method has behind the name of its function are characters of identifiers. -/
theorem isNamePart_of_suffix {more : List Char} (hmethod : m.method.toList = f.name.toList ++ more)
    (hmore : ∀ c ∈ more, isSuffixChar c = true) (hascii : isAscii m.method = true) :
    ∀ c ∈ more, isNamePart c = true := by
  intro c hc
  refine isNamePart_of_isSuffixChar (hmore c hc) (isAscii_iff.mp hascii c ?_)
  rw [hmethod]
  exact List.mem_append_right _ hc

theorem dollar_mem_method (h : MethodGoesOn f m) (hmem : '$' ∈ m.method.toList) :
    '$' ∈ f.name.toList := by
  obtain ⟨more, hmethod, hmore⟩ := h
  rw [hmethod, List.mem_append] at hmem
  refine hmem.resolve_right fun hd => ?_
  have hsuffix := hmore '$' hd
  revert hsuffix
  decide

theorem dollar_mem_hookName (h : MethodGoesOn f m) (hf : isIdentifier f.name = true)
    (hmem : '$' ∈ m.hookName.toList) : '$' ∈ m.contract.toList ∨ '$' ∈ m.method.toList := by
  obtain ⟨c, cs, hmethod, hstart, -, hhook⟩ := h.hookName hf
  rw [hhook, List.mem_append, List.mem_append, List.mem_cons] at hmem
  rw [hmethod, List.mem_cons]
  rcases hmem with huse | hcontract | hupper | hcs
  · exact absurd huse (by decide)
  · exact .inl hcontract
  · exact .inr (.inl (eq_dollar_of_toUpper hupper.symm).symm)
  · exact .inr (.inr hcs)

theorem isIdentifier_hookName (h : MethodGoesOn f m) (hf : isIdentifier f.name = true)
    (hmethod : isIdentifier m.method = true) (hcontract : isIdentifier m.contract = true) :
    isIdentifier m.hookName = true := by
  obtain ⟨c, cs, hchars, hupper, -, hhook⟩ := h.hookName hf
  refine isIdentifier_of_goesOn (by decide : isIdentifier "use" = true) hhook ?_
  intro d hd
  rcases List.mem_append.mp hd with hd | hd
  · exact isNamePart_of_mem hcontract d hd
  rcases List.mem_cons.mp hd with rfl | hd
  · exact isNamePart_of_isNameStart hupper
  · refine isNamePart_of_mem hmethod d ?_
    rw [hchars]
    exact List.mem_cons_of_mem c hd

/-! ## Calls -/

theorem read_literal {literal : String} (h : m.callExpr = "this.contract[" ++ literal ++ "]") :
    Json.read literal.toList = .ok (.str m.callKey) := by
  have hlist := congrArg String.toList h
  unfold callExpr at hlist
  split at hlist
  · -- a call by name has a dot where the other one has a bracket
    simp [String.toList_append] at hlist
  · have hliteral : literal = (Json.str m.callKey).text := by
      simp only [String.toList_append, List.append_assoc, List.append_cancel_left_eq,
        List.append_cancel_right_eq] at hlist
      exact String.toList_injective hlist.symm
    rw [hliteral]
    exact Json.read_text rfl

theorem call_cases (m : Member) : m.callKey = m.name ∧ m.callExpr = "this.contract." ++ m.name ∨
    m.callKey ≠ m.name ∧ ∃ literal, m.callExpr = "this.contract[" ++ literal ++ "]" := by
  unfold callExpr
  split
  · next hk => exact .inl ⟨hk, rfl⟩
  · next hk => exact .inr ⟨hk, _, rfl⟩

/-- **The names of methods and hooks are identifiers, and a call names its function by the key.** The
contract and its functions must have such names themselves, and their types be in ASCII, whatever they
hold. A method has the name of its function, if need be with something behind an underscore, and a
literal in the call is JSON for the key. -/
theorem ofEntries_safe (hcontract : isIdentifier contract = true) (h : HavePlainNames entries) :
    ∀ m ∈ ofEntries contract entries, m.IsSafe := by
  intro m hm
  obtain ⟨i, f, hf, hm⟩ := exists_at_of_mem hm
  have hbuilt := builtFrom_at hf hm
  have hascii := isAscii_method h hf hm
  obtain ⟨hmem, hfun⟩ := List.mem_filter.mp (List.mem_of_getElem? hf)
  have hname := h.names f hmem hfun
  have hgoes := methodGoesOn_at hf hm
  have hmethod : isIdentifier m.method = true := by
    obtain ⟨more, hmore, hsuffix⟩ := hgoes
    exact isIdentifier_of_goesOn hname hmore (isNamePart_of_suffix hmore hsuffix hascii)
  exact {
    method := hmethod
    hookName := isIdentifier_hookName hgoes hname hmethod (by rw [hbuilt.contract, hcontract])
    goesOn := by
      by_cases he : m.method = f.name
      · exact .inl (by rw [he, hbuilt.name])
      · rw [hbuilt.name]
        exact .inr ((ofEntries_isFirstFree hf hm).goes_on he)
    dollar := by
      rw [hbuilt.name]
      rintro (hmem | hmem)
      · exact .inr (dollar_mem_method hgoes hmem)
      · exact (dollar_mem_hookName hgoes hname hmem).imp_right (dollar_mem_method hgoes)
    call := call_cases m
    literal := fun _ => read_literal }

end

def quotedTypes : List Abi.Entry := [
  ⟨"$fill", [⟨"id", .elementary "a\"\n]"⟩], false, Abi.Entry.functionKind⟩,
  ⟨"$fill", [⟨"id", .elementary "a[\\]"⟩], false, Abi.Entry.functionKind⟩,
  ⟨"$fill", [⟨"orders", .tuple "[]" [.elementary "int,", .elementary "\x7f"]⟩], false,
    Abi.Entry.functionKind⟩]

theorem ofEntries_safe_quotedTypes :
    isIdentifier "Exchange" = true ∧ HavePlainNames quotedTypes ∧
    (∀ m ∈ ofEntries "Exchange" quotedTypes, m.IsSafe) ∧
    (ofEntries "Exchange" quotedTypes).map (fun m => (m.method, m.hookName, m.callExpr)) = [
      ("$fill_a___", "useExchange$fill_a___", "this.contract[\"$fill(a\\\"\\n])\"]"),
      ("$fill_a____2", "useExchange$fill_a____2", "this.contract[\"$fill(a[\\\\])\"]"),
      ("$fill__int______", "useExchange$fill__int______",
        "this.contract[\"$fill((int,,\\u007f)[])\"]")] := by
  have hnames : HavePlainNames quotedTypes := ⟨by decide, by decide⟩
  exact ⟨by decide, hnames, ofEntries_safe (by decide) hnames, by decide +kernel⟩

end Member

end ContractBindings
