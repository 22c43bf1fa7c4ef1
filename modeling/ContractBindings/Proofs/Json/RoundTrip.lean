import ContractBindings.Proofs.Json.Reading
import ContractBindings.Proofs.Json.Strings
import ContractBindings.Proofs.Keyed

/-!
# JSON text is read as it was written

A value without floating-point numbers, in whose objects no key repeats, is
read from its text, whatever the layout: the text spells the value. The
induction is over the value, for any nesting depth.
-/

namespace ContractBindings.Json

open Decimal

/-! ## Values that text keeps -/

mutual
/-- Whether numbers are integers and keys are distinct, at any depth. -/
def isExact : Json → Bool
  | .double _ => false
  | .arr vs => areExact vs
  | .obj fs => decide (fs.map Prod.fst).Nodup && fieldsAreExact fs
  | _ => true
def areExact : List Json → Bool
  | [] => true
  | v :: vs => isExact v && areExact vs
def fieldsAreExact : List (String × Json) → Bool
  | [] => true
  | (_, v) :: fs => isExact v && fieldsAreExact fs
end

/-! ## Blanks and numbers -/

theorem isGap_lead (layout : Layout) (depth : Nat) : IsGap (layout.lead depth) := by
  intro c hc
  cases layout with
  | inline => cases hc
  | indented width =>
    rcases List.mem_cons.mp hc with rfl | hc
    · rfl
    · rw [List.eq_of_mem_replicate hc]
      rfl

theorem separator_eq (layout : Layout) (depth : Nat) :
    ∃ gap, layout.separator depth = ',' :: gap ∧ IsGap gap := by
  cases layout with
  | inline => exact ⟨[' '], rfl, by simp [IsGap, isSpace]⟩
  | indented width => exact ⟨_, rfl, isGap_lead (.indented width) depth⟩

theorem isGap_nil : IsGap [] := by simp [IsGap]

theorem isGap_blank : IsGap [' '] := by simp [IsGap, isSpace]

theorem wholeText_natText {n : Nat} {ds : List Nat} (h : IsDigitsOf n ds) : WholeText (natText n) ds := by
  have hdigits := h.digits
  obtain ⟨d, tail, rfl, hlead⟩ := h.lead
  rw [h.text]
  by_cases hd : d = 0
  · obtain ⟨rfl, -⟩ := hlead hd
    subst hd
    exact .zero
  · exact .digits hd hdigits

theorem numberText_intText (n : Int) : NumberText (intText n) (.int n : Json) := by
  have hnat : ∀ (negative : Bool) (n : Nat),
      NumberText ((if negative then ['-'] else []) ++ natText n) (.int (signed negative n) : Json) := by
    intro negative n
    obtain ⟨ds, hd⟩ := exists_isDigitsOf n
    have h : NumberText ((if negative then ['-'] else []) ++ (natText n ++ ([] ++ [])))
        (numberOf negative ds [] none : Json) := .intro (wholeText_natText hd) .none .none
    rwa [List.append_nil, List.append_nil, numberOf, hd.value] at h
  cases n with
  | ofNat n => exact hnat false n
  | negSucc n => exact hnat true (n + 1)

/-! ## Values, items and fields -/

mutual
theorem spells_chars (layout : Layout) : ∀ (v : Json) (depth : Nat), v.isExact = true →
    Spells words (chars layout depth v) (.value v)
  | .null, _, _ => .word (.head _)
  | .bool true, _, _ => .word (.tail _ (.head _))
  | .bool false, _, _ => .word (.tail _ (.tail _ (.head _)))
  | .int n, _, _ => .number (numberText_intText n)
  | .double _, _, h => by cases h
  | .str s, _, _ => .string (stringText_stringChars s)
  | .arr [], _, _ => .emptyArray isGap_nil
  | .arr (v :: vs), depth, h => by
    have hitems := spells_items layout (v :: vs) (depth + 1) depth h v vs rfl
    have htext : chars layout depth (.arr (v :: vs)) =
        '[' :: (layout.lead (depth + 1) ++ (chars layout (depth + 1) v ++
          (itemChars layout (depth + 1) vs ++ (layout.lead depth ++ [']'])))) := by
      simp [chars]
    rw [htext]
    exact .array (isGap_lead layout _) hitems
  | .obj [], _, _ => .emptyObject isGap_nil
  | .obj ((k, v) :: fs), depth, h => by
    obtain ⟨hn, hfs⟩ := Bool.and_eq_true_iff.mp h
    have hfields := spells_fields layout ((k, v) :: fs) (depth + 1) depth hfs k v fs rfl
    have htext : chars layout depth (.obj ((k, v) :: fs)) =
        '\x7b' :: (layout.lead (depth + 1) ++ (stringChars k ++ ':' :: ' ' ::
          (chars layout (depth + 1) v ++ (fieldChars layout (depth + 1) fs ++
            (layout.lead depth ++ ['\x7d']))))) := by
      simp [chars]
    -- the fields are stored one by one; their keys are distinct
    have hobject := Spells.object (isGap_lead layout (depth + 1)) hfields
    rw [Keyed.ofPairs_of_nodup (of_decide_eq_true hn), ← htext] at hobject
    exact hobject
theorem spells_items (layout : Layout) : ∀ (items : List Json) (depth outer : Nat),
    areExact items = true → ∀ v vs, items = v :: vs →
      Spells words (chars layout depth v ++ (itemChars layout depth vs ++ (layout.lead outer ++ [']'])))
        (.items items)
  | [], _, _, _ => by
    intro v vs h
    cases h
  | [v], depth, outer, h => by
    rintro _ _ ⟨⟩
    exact .lastItem (spells_chars layout v depth (Bool.and_eq_true_iff.mp h).1) (isGap_lead layout outer)
  | v :: w :: ws, depth, outer, h => by
    rintro _ _ ⟨⟩
    obtain ⟨hv, hvs⟩ := Bool.and_eq_true_iff.mp h
    obtain ⟨gap, hgap, hblank⟩ := separator_eq layout depth
    have htext : itemChars layout depth (w :: ws) ++ (layout.lead outer ++ [']']) =
        [] ++ ',' :: (gap ++ (chars layout depth w ++
          (itemChars layout depth ws ++ (layout.lead outer ++ [']'])))) := by
      simp [itemChars, hgap]
    rw [htext]
    exact .item (spells_chars layout v depth hv) isGap_nil hblank
      (spells_items layout (w :: ws) depth outer hvs w ws rfl)
theorem spells_fields (layout : Layout) : ∀ (fs : List (String × Json)) (depth outer : Nat),
    fieldsAreExact fs = true → ∀ k v fs', fs = (k, v) :: fs' →
      Spells words (stringChars k ++ ':' :: ' ' :: (chars layout depth v ++
        (fieldChars layout depth fs' ++ (layout.lead outer ++ ['\x7d'])))) (.fields fs)
  | [], _, _, _ => by
    intro k v fs h
    cases h
  | [(k, v)], depth, outer, h => by
    rintro _ _ _ ⟨⟩
    exact .lastField (stringText_stringChars k) isGap_nil isGap_blank
      (spells_chars layout v depth (Bool.and_eq_true_iff.mp h).1) (isGap_lead layout outer)
  | (k, v) :: (l, w) :: fs, depth, outer, h => by
    rintro _ _ _ ⟨⟩
    obtain ⟨hv, hfs⟩ := Bool.and_eq_true_iff.mp h
    obtain ⟨gap, hgap, hblank⟩ := separator_eq layout depth
    have htext : fieldChars layout depth ((l, w) :: fs) ++ (layout.lead outer ++ ['\x7d']) =
        [] ++ ',' :: (gap ++ (stringChars l ++ ':' :: ' ' :: (chars layout depth w ++
          (fieldChars layout depth fs ++ (layout.lead outer ++ ['\x7d']))))) := by
      simp [fieldChars, hgap]
    rw [htext]
    exact .field (stringText_stringChars k) isGap_nil isGap_blank (spells_chars layout v depth hv)
      isGap_nil hblank (spells_fields layout ((l, w) :: fs) depth outer hfs l w fs rfl)
end

/-- **A value is read from its text**, in any layout. -/
theorem read_chars (layout : Layout) {v : Json} (h : v.isExact = true) :
    read (chars layout 0 v) = .ok v :=
  read_eq_ok.mpr ⟨[], _, [], by simp, isGap_nil, isGap_nil, spells_chars layout v 0 h⟩

theorem read_pretty {v : Json} (h : v.isExact = true) : read v.pretty.toList = .ok v := by
  rw [pretty, String.toList_ofList]
  exact read_chars (.indented 2) h

theorem read_text {v : Json} (h : v.isExact = true) : read v.text.toList = .ok v := by
  rw [text, String.toList_ofList]
  exact read_chars .inline h

end ContractBindings.Json
