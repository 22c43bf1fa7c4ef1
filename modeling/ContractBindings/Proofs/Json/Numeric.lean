import ContractBindings.Proofs.Json.Grammar
import ContractBindings.Proofs.Keyed

/-!
# Values that are numbers

A decimal number is rounded to a finite number or to an infinity, so no text
denotes the value that is no number, unless a word for it is in the grammar.
-/

namespace ContractBindings

namespace Binary64

theorem isNaN_ofMagnitude (negative : Bool) {magnitude : Nat}
    (h : magnitude ≤ 2047 * Nat.pow 2 52) : (ofMagnitude negative magnitude).isNaN = false := by
  have hbits : (ofMagnitude negative magnitude).bits.toNat =
      magnitude + if negative then Nat.pow 2 63 else 0 := by
    apply UInt64.toNat_ofNat_of_lt'
    cases negative <;> simp [UInt64.size] at h ⊢ <;> omega
  unfold isNaN isFinite fraction exponentField
  rw [hbits]
  cases negative <;> simp at h ⊢ <;> omega

theorem isNaN_ofQuotient (negative : Bool) (num den : Nat) :
    (ofQuotient negative num den).isNaN = false := by
  unfold ofQuotient
  split
  · exact isNaN_ofMagnitude negative (Nat.zero_le _)
  · dsimp only
    split
    · exact isNaN_ofMagnitude negative (Nat.le_refl _)
    · next h => exact isNaN_ofMagnitude negative (Nat.le_of_not_le h)

theorem isNaN_ofDecimal (negative : Bool) (m : Nat) (e : Int) :
    (ofDecimal negative m e).isNaN = false := by
  unfold ofDecimal
  dsimp only
  split
  · exact isNaN_ofMagnitude negative (Nat.zero_le _)
  split
  · exact isNaN_ofMagnitude negative (Nat.le_refl _)
  split
  · exact isNaN_ofQuotient negative _ _
  · exact isNaN_ofQuotient negative _ _

end Binary64

namespace Json

variable {σ : Type}

mutual
def isNumeric : Json σ → Bool
  | .double x => !x.isNaN
  | .arr vs => areNumeric vs
  | .obj fs => fieldsAreNumeric fs
  | _ => true
def areNumeric : List (Json σ) → Bool
  | [] => true
  | v :: vs => isNumeric v && areNumeric vs
def fieldsAreNumeric : List (σ × Json σ) → Bool
  | [] => true
  | (_, v) :: fs => isNumeric v && fieldsAreNumeric fs
end

theorem fieldsAreNumeric_iff {fs : List (σ × Json σ)} :
    fieldsAreNumeric fs = true ↔ ∀ f ∈ fs, f.2.isNumeric = true := by
  induction fs with
  | nil => simp [fieldsAreNumeric]
  | cons f fs ih =>
    obtain ⟨k, v⟩ := f
    simp [fieldsAreNumeric, ih]

theorem isNumeric_number {p : List Char} {v : Json σ} (h : NumberText p v) : v.isNumeric = true := by
  obtain @⟨negative, w, f, e, whole, part, power, hw, hf, he⟩ := h
  cases power with
  | none =>
    cases part with
    | nil => rfl
    | cons d ds => simp [numberOf, isNumeric, Binary64.isNaN_ofDecimal]
  | some e => cases part <;> simp [numberOf, isNumeric, Binary64.isNaN_ofDecimal]

def Phrase.isNumeric : Phrase σ → Bool
  | .value v => v.isNumeric
  | .items vs => areNumeric vs
  | .fields fs => fieldsAreNumeric fs

/-- What is spelled with words for numbers only is made of numbers. -/
theorem Spells.isNumeric [JsonString σ] [DecidableEq σ] {ws : List (List Char × Json σ)}
    (hws : ∀ w ∈ ws, w.2.isNumeric = true) {p : List Char} {x : Phrase σ} (h : Spells ws p x) :
    x.isNumeric = true := by
  induction h with
  | word h => exact hws _ h
  | number h => exact isNumeric_number h
  | string => rfl
  | emptyArray => rfl
  | array _ _ ih => exact ih
  | emptyObject => rfl
  | @object gap p fs _ _ ih =>
    refine fieldsAreNumeric_iff.mpr fun f hf => ?_
    exact fieldsAreNumeric_iff.mp ih f (Keyed.mem_of_mem_ofPairs hf)
  | lastItem _ _ ih => exact Bool.and_eq_true_iff.mpr ⟨ih, rfl⟩
  | item _ _ _ _ ih ihq => exact Bool.and_eq_true_iff.mpr ⟨ih, ihq⟩
  | lastField _ _ _ _ _ ih => exact Bool.and_eq_true_iff.mpr ⟨ih, rfl⟩
  | field _ _ _ _ _ _ _ ih ihq => exact Bool.and_eq_true_iff.mpr ⟨ih, ihq⟩

theorem Denotes.isNumeric [JsonString σ] [DecidableEq σ] {text : List Char} {v : Json σ}
    (h : Denotes plainWords text v) : v.isNumeric = true := by
  obtain ⟨front, p, back, -, -, -, hp⟩ := h
  exact hp.isNumeric (by simp [plainWords, Json.isNumeric])

end Json

end ContractBindings
