import ContractBindings.Json.Printer
import ContractBindings.Proofs.Json.Grammar
import ContractBindings.Proofs.Text.Utf8

/-!
# Strings in JSON text

What is written for a character spells its code units, and the units of a
string are joined to its characters again. Characters beyond the first plane
are the ones with two units. Joining merges no two lists of units, also where
a surrogate stands alone (`flatMap_joinPairs`).
-/

namespace ContractBindings.Json

/-! ## Units of characters -/

def unitsOf (c : Char) : List Nat :=
  if c.toNat < 0x10000 then [c.toNat]
  else [0xD800 + (c.toNat - 0x10000) / 0x400, 0xDC00 + (c.toNat - 0x10000) % 0x400]

theorem toNat_bounds (c : Char) : c.toNat < 0x110000 ∧ (c.toNat < 0xD800 ∨ 0xDFFF < c.toNat) := by
  have h := c.valid
  rcases h with h | ⟨h, h'⟩
  · have : c.toNat < 0xD800 := h
    omega
  · have h₁ : 0xDFFF < c.toNat := h
    have h₂ : c.toNat < 0x110000 := h'
    omega

theorem joinPairs_cons {n : Nat} (h : isHighSurrogate n = false) (ns : List Nat) :
    joinPairs (n :: ns) = .ofNat n :: joinPairs ns := by
  cases ns with
  | nil => rfl
  | cons m ns => rw [joinPairs, h, Bool.false_and, if_neg Bool.false_ne_true]

theorem ofNat_toNat (c : Char) : CodePoint.ofNat c.toNat = .char c := by
  obtain ⟨-, hgap⟩ := toNat_bounds c
  rw [CodePoint.ofNat, dif_neg (by omega), Char.ofNat_toNat]

theorem joinPairs_unitsOf (c : Char) (ns : List Nat) :
    joinPairs (unitsOf c ++ ns) = .char c :: joinPairs ns := by
  obtain ⟨hmax, hgap⟩ := toNat_bounds c
  unfold unitsOf
  split
  · have hh : isHighSurrogate c.toNat = false := by
      unfold isHighSurrogate
      simp only [Bool.and_eq_false_iff, decide_eq_false_iff_not]
      omega
    rw [List.singleton_append, joinPairs_cons hh, ofNat_toNat]
  · have hh : isHighSurrogate (0xD800 + (c.toNat - 0x10000) / 0x400) = true := by
      unfold isHighSurrogate
      simp only [Bool.and_eq_true, decide_eq_true_eq]
      omega
    have hl : isLowSurrogate (0xDC00 + (c.toNat - 0x10000) % 0x400) = true := by
      unfold isLowSurrogate
      simp only [Bool.and_eq_true, decide_eq_true_eq]
      omega
    rw [List.cons_append, List.singleton_append, joinPairs, hh, hl]
    have hn : 0x10000 + (0xD800 + (c.toNat - 0x10000) / 0x400 - 0xD800) * 0x400 +
        (0xDC00 + (c.toNat - 0x10000) % 0x400 - 0xDC00) = c.toNat := by
      omega
    rw [hn]
    simp

theorem joinPairs_flatMap (cs : List Char) : joinPairs (cs.flatMap unitsOf) = cs.map .char := by
  induction cs with
  | nil => rfl
  | cons c cs ih => rw [List.flatMap_cons, joinPairs_unitsOf, ih, List.map_cons]

theorem ofPoints_ofString (s : String) : JsonString.ofPoints (CodePoints.ofString s) = s := by
  show String.ofList ((s.toList.map CodePoint.char).map CodePoint.toChar) = s
  rw [List.map_map, show CodePoint.toChar ∘ CodePoint.char = id from rfl, List.map_id, String.ofList_toList]

/-! ## Units of code points -/

def pointUnits : CodePoint → List Nat
  | .char c => unitsOf c
  | .surrogate n => [0xD800 + n]

theorem pointUnits_ofNat {n : Nat} (h : n < 0x10000) : pointUnits (.ofNat n) = [n] := by
  unfold CodePoint.ofNat
  split
  · next hgap => rw [pointUnits, Nat.add_sub_of_le hgap.1]
  · next hgap =>
    have hn : (Char.ofNat n).toNat = n := Text.Utf8.toNat_ofNat (by unfold Nat.isValidChar; omega)
    rw [pointUnits, unitsOf, hn, if_pos h]

theorem unitsOf_pair {n m : Nat} (hn : isHighSurrogate n) (hm : isLowSurrogate m) :
    unitsOf (Char.ofNat (0x10000 + (n - 0xD800) * 0x400 + (m - 0xDC00))) = [n, m] := by
  simp only [isHighSurrogate, isLowSurrogate, Bool.and_eq_true, decide_eq_true_eq] at hn hm
  generalize hk : 0x10000 + (n - 0xD800) * 0x400 + (m - 0xDC00) = k
  have hc : (Char.ofNat k).toNat = k := Text.Utf8.toNat_ofNat (by unfold Nat.isValidChar; omega)
  have hhigh : 0xD800 + (k - 0x10000) / 0x400 = n := by omega
  have hlow : 0xDC00 + (k - 0x10000) % 0x400 = m := by omega
  rw [unitsOf, hc, if_neg (by omega), hhigh, hlow]

/-- Nothing is lost when units are joined. -/
theorem flatMap_joinPairs {ns : List Nat} (h : ∀ n ∈ ns, n < 0x10000) :
    (joinPairs ns).flatMap pointUnits = ns := by
  induction ns using joinPairs.induct with
  | case1 => rfl
  | case2 n => rw [joinPairs, List.flatMap_singleton, pointUnits_ofNat (h n (by simp))]
  | case3 n m ns hpair ih =>
    have hns := ih fun k hk => h k (by simp [hk])
    obtain ⟨hn, hm⟩ := Bool.and_eq_true_iff.mp hpair
    rw [joinPairs, if_pos hpair, List.flatMap_cons, hns, pointUnits, unitsOf_pair hn hm]
    rfl
  | case4 n m ns hpair ih =>
    have hns := ih fun k hk => h k (List.mem_cons_of_mem _ hk)
    rw [joinPairs, if_neg hpair, List.flatMap_cons, hns, pointUnits_ofNat (h n (by simp))]
    rfl

/-! ## Escapes -/

theorem hexValue?_digitChar : ∀ d < 16, Text.hexValue? d.digitChar = some d := by
  decide

theorem unit?_hexDigits {n : Nat} (h : n < 0x10000) :
    ∃ a b c d, Text.hexDigits 4 n = [a, b, c, d] ∧ unit? a b c d = some n := by
  refine ⟨_, _, _, _, rfl, ?_⟩
  unfold unit?
  rw [hexValue?_digitChar _ (Nat.mod_lt _ (by decide)), hexValue?_digitChar _ (Nat.mod_lt _ (by decide)),
    hexValue?_digitChar _ (Nat.mod_lt _ (by decide)), hexValue?_digitChar _ (Nat.mod_lt _ (by decide))]
  apply congrArg some
  omega

variable {p : List Char} {ns : List Nat}

theorem UnitsText.unitEscape {n : Nat} (h : n < 0x10000) (hp : UnitsText p ns) :
    UnitsText (unitEscape n ++ p) (n :: ns) := by
  obtain ⟨a, b, c, d, hd, hu⟩ := unit?_hexDigits h
  unfold Json.unitEscape
  rw [hd]
  exact .unit hu hp

theorem unitsOf_of_lt {c : Char} (h : c.toNat < 0x10000) : unitsOf c = [c.toNat] := if_pos h

/-- What is written for a character spells its units. -/
theorem UnitsText.escape (c : Char) (hp : UnitsText p ns) :
    UnitsText (escape c ++ p) (unitsOf c ++ ns) := by
  have hshort : ∀ e x : Char, shortEscape? e = some x → x.toNat < 0x10000 →
      UnitsText (['\\', e] ++ p) (unitsOf x ++ ns) := by
    intro e x he hx
    rw [unitsOf_of_lt hx]
    exact .short he hp
  unfold Json.escape
  split
  · next h => subst h; exact hshort _ _ rfl (by decide)
  split
  · next h => subst h; exact hshort _ _ rfl (by decide)
  split
  · next h => subst h; exact hshort _ _ rfl (by decide)
  split
  · next h => subst h; exact hshort _ _ rfl (by decide)
  split
  · next h => subst h; exact hshort _ _ rfl (by decide)
  split
  · next h =>
    obtain rfl : c = Char.ofNat 8 := by rw [← h, Char.ofNat_toNat]
    exact hshort _ _ rfl (by decide)
  split
  · next h =>
    obtain rfl : c = Char.ofNat 12 := by rw [← h, Char.ofNat_toNat]
    exact hshort _ _ rfl (by decide)
  split
  -- a printable character stands for itself
  · next hq hb _ _ _ _ _ h =>
    simp only [Bool.and_eq_true, decide_eq_true_eq] at h
    rw [unitsOf_of_lt (by omega)]
    exact .plain hq hb (by omega) hp
  split
  · next h =>
    rw [unitsOf_of_lt h]
    exact hp.unitEscape h
  · next h =>
    -- beyond the first plane two escapes are written, one for each surrogate
    obtain ⟨hmax, -⟩ := toNat_bounds c
    rw [unitsOf, if_neg h, List.append_assoc]
    exact (hp.unitEscape (by omega)).unitEscape (by omega)

theorem unitsText_flatMap (cs : List Char) : UnitsText (cs.flatMap escape) (cs.flatMap unitsOf) := by
  induction cs with
  | nil => exact .nil
  | cons c cs ih =>
    rw [List.flatMap_cons, List.flatMap_cons]
    exact ih.escape c

theorem stringText_stringChars (s : String) : StringText (stringChars s) s := by
  have h : @StringText String _ (stringChars s) _ := .intro (unitsText_flatMap s.toList)
  rwa [joinPairs_flatMap, ← CodePoints.ofString, ofPoints_ofString] at h

end ContractBindings.Json
