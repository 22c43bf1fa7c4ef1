import ContractBindings.Json.Reader
import ContractBindings.Proofs.Decimal.Digits
import ContractBindings.Proofs.Outcome

/-!
# The grammar of JSON text

`Spells words p x` says that a piece of text spells a value, or the items or
fields behind an opening bracket. The grammar is that of RFC 8259; the words
that stand for values are given with it, so that it is the grammar of the
standard with three of them, and that of the reader with three more.

Numbers and strings are compared with the reader here, each with the condition
on the text behind it under which the reader stops where the grammar does.
-/

namespace ContractBindings.Json

open Decimal

variable {σ : Type}

/-! ## Numbers -/

inductive WholeText : List Char → List Nat → Prop
  | zero : WholeText ['0'] [0]
  | digits {d : Nat} {ds : List Nat} (hd : d ≠ 0) (h : ∀ e ∈ d :: ds, e < 10) :
    WholeText ((d :: ds).map Nat.digitChar) (d :: ds)

inductive FractionText : List Char → List Nat → Prop
  | none : FractionText [] []
  | digits {ds : List Nat} (hne : ds ≠ []) (h : ∀ d ∈ ds, d < 10) :
    FractionText ('.' :: ds.map Nat.digitChar) ds

inductive SignText : List Char → Bool → Prop
  | none : SignText [] false
  | plus : SignText ['+'] false
  | minus : SignText ['-'] true

def signed (negative : Bool) (n : Nat) : Int := if negative then -n else n

inductive ExponentText : List Char → Option Int → Prop
  | none : ExponentText [] none
  | digits {letter : Char} {sign : List Char} {negative : Bool} {ds : List Nat}
      (hletter : letter = 'e' ∨ letter = 'E') (hsign : SignText sign negative) (hne : ds ≠ [])
      (h : ∀ d ∈ ds, d < 10) :
    ExponentText (letter :: (sign ++ ds.map Nat.digitChar)) (some (signed negative (ofDigits ds)))

def numberOf (negative : Bool) (whole : List Nat) : List Nat → Option Int → Json σ
  | [], none => .int (signed negative (ofDigits whole))
  | part, none => .double (Binary64.ofDecimal negative (ofDigits (whole ++ part)) (-part.length))
  | part, some e => .double (Binary64.ofDecimal negative (ofDigits (whole ++ part)) (e - part.length))

inductive NumberText : List Char → Json σ → Prop
  | intro {negative : Bool} {w f e : List Char} {whole part : List Nat} {power : Option Int}
      (hw : WholeText w whole) (hf : FractionText f part) (he : ExponentText e power) :
    NumberText ((if negative then ['-'] else []) ++ (w ++ (f ++ e))) (numberOf negative whole part power)

/-! ### What the reader takes -/

theorem wholePart_sound {cs rest : List Char} {ds : List Nat} (h : wholePart cs = (ds, rest))
    (hne : ds ≠ []) : ∃ p, cs = p ++ rest ∧ WholeText p ds := by
  unfold wholePart at h
  split at h
  · cases h
    exact ⟨['0'], rfl, .zero⟩
  · next hzero =>
    obtain ⟨rfl, hds⟩ := eq_of_spanDigits h
    obtain ⟨d, tail, rfl⟩ := List.exists_cons_of_ne_nil hne
    refine ⟨_, rfl, .digits ?_ hds⟩
    rintro rfl
    exact hzero _ rfl

theorem fraction_sound {cs rest : List Char} {ds : List Nat} (h : fraction cs = (ds, rest)) :
    ∃ p, cs = p ++ rest ∧ FractionText p ds := by
  unfold fraction at h
  split at h
  · split at h
    · cases h
      exact ⟨[], rfl, .none⟩
    · next hne hspan =>
      cases h
      obtain ⟨rfl, hds⟩ := eq_of_spanDigits hspan
      exact ⟨'.' :: ds.map Nat.digitChar, rfl, .digits hne hds⟩
  · cases h
    exact ⟨[], rfl, .none⟩

theorem sign_sound {cs rest : List Char} {negative : Bool} (h : sign cs = (negative, rest)) :
    ∃ p, cs = p ++ rest ∧ SignText p negative := by
  unfold sign at h
  split at h
  · cases h
    exact ⟨['-'], rfl, .minus⟩
  · cases h
    exact ⟨['+'], rfl, .plus⟩
  · cases h
    exact ⟨[], rfl, .none⟩

theorem exponent?_sound {cs rest : List Char} {e : Int} (h : exponent? cs = some (e, rest)) :
    ∃ p, cs = p ++ rest ∧ ExponentText p (some e) := by
  unfold exponent? at h
  split at h
  · cases h
  next c cs =>
  split at h
  · next hletter =>
    obtain ⟨negative, cs', hsign⟩ : ∃ negative cs', sign cs = (negative, cs') := ⟨_, _, rfl⟩
    rw [hsign] at h
    dsimp only at h
    obtain ⟨p, rfl, hp⟩ := sign_sound hsign
    split at h
    · cases h
    · next ds rest' hne hspan =>
      cases h
      obtain ⟨rfl, hds⟩ := eq_of_spanDigits hspan
      refine ⟨c :: (p ++ ds.map Nat.digitChar), by simp, .digits ?_ hp hne hds⟩
      simpa using hletter
  · cases h

theorem number?_sound {cs rest : List Char} {v : Json σ} (h : number? cs = some (v, rest)) :
    ∃ p, cs = p ++ rest ∧ NumberText p v := by
  unfold number? at h
  split at h
  next negative digits hsign =>
  obtain rfl : cs = (if negative then ['-'] else []) ++ digits := by
    split at hsign <;> cases hsign <;> rfl
  split at h
  · cases h
  next whole rest₁ hne hwhole =>
  obtain ⟨w, rfl, hw⟩ := wholePart_sound hwhole hne
  obtain ⟨part, rest₂, hpart⟩ : ∃ part rest₂, fraction rest₁ = (part, rest₂) := ⟨_, _, rfl⟩
  obtain ⟨f, rfl, hf⟩ := fraction_sound hpart
  rw [hpart] at h
  dsimp only at h
  cases hpower : exponent? rest₂ with
  | none =>
    have hv : some (numberOf negative whole part none, rest₂) = some (v, rest) := by
      rw [hpower] at h
      cases part with
      | nil => exact h
      | cons d ds => exact h
    cases hv
    exact ⟨_, by simp, .intro hw hf .none⟩
  | some found =>
    obtain ⟨e, rest₃⟩ := found
    have hv : some (numberOf negative whole part (some e), rest₃) = some (v, rest) := by
      rw [hpower] at h
      cases part with
      | nil => exact h
      | cons d ds => exact h
    cases hv
    obtain ⟨x, rfl, hx⟩ := exponent?_sound hpower
    exact ⟨_, by simp, .intro hw hf hx⟩

/-! ### What the reader has to take -/

variable {rest : List Char}

theorem wholePart_append {p : List Char} {ds : List Nat} (h : WholeText p ds) (hr : NoDigit rest) :
    wholePart (p ++ rest) = (ds, rest) := by
  cases h with
  | zero => rfl
  | @digits d ds hd h =>
    unfold wholePart
    split
    · next he =>
      exact absurd (Nat.digitChar_eq_zero.mp (List.cons.inj he).1) hd
    · exact spanDigits_digits hr h

theorem fraction_append {p : List Char} {ds : List Nat} (h : FractionText p ds) (hr : NoDigit rest)
    (hpoint : rest.head? ≠ some '.') : fraction (p ++ rest) = (ds, rest) := by
  cases h with
  | none =>
    rw [List.nil_append]
    unfold fraction
    split
    · exact absurd rfl hpoint
    · rfl
  | digits hne h =>
    rw [List.cons_append, fraction, spanDigits_digits hr h]
    split
    · next he =>
      cases he
      exact absurd rfl hne
    · next he =>
      rw [he]

theorem sign_append {p : List Char} {negative : Bool} (h : SignText p negative)
    (hr : rest.head? ≠ some '-' ∧ rest.head? ≠ some '+') : sign (p ++ rest) = (negative, rest) := by
  cases h with
  | none =>
    rw [List.nil_append]
    unfold sign
    split
    · exact absurd rfl hr.1
    · exact absurd rfl hr.2
    · rfl
  | plus => rfl
  | minus => rfl

theorem exponent?_append {p : List Char} {power : Option Int} (h : ExponentText p power)
    (hr : EndsNumber rest) : exponent? (p ++ rest) = power.map (·, rest) := by
  cases h with
  | none =>
    cases rest with
    | nil => rfl
    | cons c cs =>
      obtain ⟨-, -, he, hE⟩ := hr c rfl
      rw [List.nil_append, exponent?, if_neg (by simp [he, hE])]
      rfl
  | @digits letter p negative ds hletter hsign hne h =>
    obtain ⟨d, tail, rfl⟩ := List.exists_cons_of_ne_nil hne
    have hdigit : ((d :: tail).map Nat.digitChar ++ rest).head? ≠ some '-' ∧
        ((d :: tail).map Nat.digitChar ++ rest).head? ≠ some '+' := by
      constructor
      · exact fun he => Nat.digitChar_ne '-' (by decide) (Option.some.inj he)
      · exact fun he => Nat.digitChar_ne '+' (by decide) (Option.some.inj he)
    rw [List.cons_append, exponent?, if_pos (by simpa using hletter), List.append_assoc,
      sign_append hsign hdigit]
    dsimp only
    rw [spanDigits_digits hr.noDigit h]
    rfl

/-- Behind the fraction there is an exponent or the end of the number. -/
theorem exponentText_head {p : List Char} {power : Option Int} (h : ExponentText p power)
    (hr : EndsNumber rest) : NoDigit (p ++ rest) ∧ (p ++ rest).head? ≠ some '.' := by
  cases h with
  | none => exact ⟨hr.noDigit, fun he => (hr '.' he).2.1 rfl⟩
  | digits hletter =>
    rcases hletter with rfl | rfl
    · exact ⟨fun c hc => by cases hc; rfl, by simp⟩
    · exact ⟨fun c hc => by cases hc; rfl, by simp⟩

theorem fractionText_head {p : List Char} {part : List Nat} (h : FractionText p part)
    (hr : NoDigit rest) : NoDigit (p ++ rest) := by
  cases h with
  | none => exact hr
  | digits => exact fun c hc => by cases hc; rfl

theorem wholeText_head {p : List Char} {whole : List Nat} (h : WholeText p whole) :
    ∃ d ds, whole = d :: ds ∧ d < 10 ∧ ∃ cs, p = d.digitChar :: cs := by
  cases h with
  | zero => exact ⟨0, [], rfl, by decide, [], rfl⟩
  | digits hd h => exact ⟨_, _, rfl, h _ List.mem_cons_self, _, rfl⟩

theorem number?_append {p : List Char} {v : Json σ} (h : NumberText p v) (hr : EndsNumber rest) :
    number? (p ++ rest) = some (v, rest) := by
  obtain @⟨negative, w, f, e, whole, part, power, hw, hf, he⟩ := h
  obtain ⟨hdigit, hpoint⟩ := exponentText_head he hr
  have hwhole := wholePart_append hw (fractionText_head hf hdigit)
  have hpart := fraction_append hf hdigit hpoint
  have hpower := exponent?_append he hr
  obtain ⟨d, ds, rfl, -, cs, rfl⟩ := wholeText_head hw
  rw [List.append_assoc, List.append_assoc, List.append_assoc]
  unfold number?
  split
  next negative' digits hsign =>
  -- a digit is no minus sign, so the reader sees the sign that is in front
  obtain ⟨rfl, rfl⟩ : negative' = negative ∧ digits = d.digitChar :: cs ++ (f ++ (e ++ rest)) := by
    cases negative with
    | true => cases hsign; exact ⟨rfl, rfl⟩
    | false =>
      split at hsign
      · next hc => exact absurd (List.cons.inj hc).1 (Nat.digitChar_ne '-' (by decide))
      · cases hsign; exact ⟨rfl, rfl⟩
  rw [hwhole]
  dsimp only
  rw [hpart]
  dsimp only
  rw [hpower]
  cases he with
  | none =>
    cases part with
    | nil => rfl
    | cons d ds => rfl
  | digits =>
    cases part with
    | nil => rfl
    | cons d ds => rfl

/-! ## Strings -/

/-- The text between the quotes of a string, and its code points and code units. -/
inductive UnitsText : List Char → List Nat → Prop
  | nil : UnitsText [] []
  | plain {c : Char} {cs : List Char} {ns : List Nat} (hquote : c ≠ '"') (hslash : c ≠ '\\')
      (hcontrol : ¬c.toNat < 32) (h : UnitsText cs ns) : UnitsText (c :: cs) (c.toNat :: ns)
  | short {e c : Char} {cs : List Char} {ns : List Nat} (he : shortEscape? e = some c)
      (h : UnitsText cs ns) : UnitsText ('\\' :: e :: cs) (c.toNat :: ns)
  | unit {a b c d : Char} {n : Nat} {cs : List Char} {ns : List Nat} (hn : unit? a b c d = some n)
      (h : UnitsText cs ns) : UnitsText ('\\' :: 'u' :: a :: b :: c :: d :: cs) (n :: ns)

inductive StringText [JsonString σ] : List Char → σ → Prop
  | intro {p : List Char} {ns : List Nat} (h : UnitsText p ns) :
    StringText ('"' :: (p ++ ['"'])) (JsonString.ofPoints (joinPairs ns))

theorem units_sound {start cs : List Char} : ∀ {ns : List Nat} {rest : List Char},
    units start cs = .ok (ns, rest) → ∃ p, cs = p ++ '"' :: rest ∧ UnitsText p ns := by
  intro ns rest h
  fun_induction units start cs generalizing ns with
  | case1 => cases h
  | case2 cs =>
    cases h
    exact ⟨[], rfl, .nil⟩
  | case3 => cases h
  | case4 => cases h
  | case5 a b c d e rest' n hn _ ih =>
    obtain ⟨⟨ns', rest''⟩, hunits, he⟩ := except_bind_eq_ok.mp h
    cases he
    obtain ⟨p, hp, htext⟩ := ih hunits
    exact ⟨'\\' :: 'u' :: a :: b :: c :: d :: p, by rw [hp]; rfl, .unit hn htext⟩
  | case6 => cases h
  | case7 => cases h
  | case8 e rest' _ _ c hc _ ih =>
    obtain ⟨⟨ns', rest''⟩, hunits, he⟩ := except_bind_eq_ok.mp h
    cases he
    obtain ⟨p, rfl, htext⟩ := ih hunits
    exact ⟨'\\' :: e :: p, rfl, .short hc htext⟩
  | case9 => cases h
  | case10 c cs hquote hslash hcontrol ih =>
    obtain ⟨⟨ns', rest''⟩, hunits, he⟩ := except_bind_eq_ok.mp h
    cases he
    obtain ⟨p, rfl, htext⟩ := ih hunits
    exact ⟨c :: p, rfl, .plain hquote hslash hcontrol htext⟩

theorem units_append {p : List Char} {ns : List Nat} (h : UnitsText p ns) (start rest : List Char) :
    units start (p ++ '"' :: rest) = .ok (ns, rest) := by
  induction h with
  | nil =>
    rw [List.nil_append, units.eq_def]
    rfl
  | plain hquote hslash hcontrol h ih =>
    rw [List.cons_append, units.eq_def]
    dsimp only
    rw [if_neg hquote, if_neg hslash, if_neg hcontrol, ih]
    rfl
  | @short e c cs ns he h ih =>
    have hu : e ≠ 'u' := by
      rintro rfl
      cases he
    rw [List.cons_append, List.cons_append, units, if_neg (by decide), if_pos rfl, he]
    · dsimp only
      rw [ih]
      rfl
    · intro _ _ _ _ _ _ h
      exact absurd h hu
    · exact hu
  | @unit a b c d n cs ns hn h ih =>
    -- there is always something behind the digits, if only the quote
    obtain ⟨x, xs, hx⟩ : ∃ x xs, cs ++ '"' :: rest = x :: xs :=
      List.exists_cons_of_ne_nil (by simp)
    rw [hx] at ih
    simp only [List.cons_append, hx]
    rw [units, if_neg (by decide), if_pos rfl]
    dsimp only
    rw [hn, ih]
    rfl

theorem stringAfterQuote_sound [JsonString σ] {cs rest : List Char} {s : σ}
    (h : stringAfterQuote cs = .ok (s, rest)) : ∃ p, '"' :: cs = p ++ rest ∧ StringText p s := by
  obtain ⟨⟨ns, rest'⟩, hunits, he⟩ := except_bind_eq_ok.mp h
  cases he
  obtain ⟨p, rfl, hp⟩ := units_sound hunits
  exact ⟨'"' :: (p ++ ['"']), by simp, .intro hp⟩

theorem stringAfterQuote_append [JsonString σ] {p : List Char} {s : σ} (h : StringText p s)
    (rest : List Char) :
    ∃ cs, p ++ rest = '"' :: cs ∧ stringAfterQuote cs = .ok (s, rest) := by
  obtain ⟨hp⟩ := h
  refine ⟨_, by rw [List.cons_append, List.append_assoc, List.singleton_append], ?_⟩
  unfold stringAfterQuote
  rw [units_append hp]
  rfl

/-! ## Values -/

/-- What a piece of text can spell: a value, or what stands behind an opening bracket up to the closing
one. -/
inductive Phrase (σ : Type) where
  | value (v : Json σ)
  | items (vs : List (Json σ))
  | fields (fs : List (σ × Json σ))

def IsGap (cs : List Char) : Prop := ∀ c ∈ cs, isSpace c = true

/-- The words of the standard. -/
def plainWords : List (List Char × Json σ) := [
  ("null".toList, .null), ("true".toList, .bool true), ("false".toList, .bool false)]

/-- The words that the reader takes besides. -/
def numberWords : List (List Char × Json σ) := [
  ("NaN".toList, .double Binary64.nan), ("Infinity".toList, .double (Binary64.infinity false)),
  ("-Infinity".toList, .double (Binary64.infinity true))]

theorem words_eq : @words σ = plainWords ++ numberWords := rfl

variable [JsonString σ] [DecidableEq σ]

inductive Spells (words : List (List Char × Json σ)) : List Char → Phrase σ → Prop
  | word {p : List Char} {v : Json σ} (h : (p, v) ∈ words) : Spells words p (.value v)
  | number {p : List Char} {v : Json σ} (h : NumberText p v) : Spells words p (.value v)
  | string {p : List Char} {s : σ} (h : StringText p s) : Spells words p (.value (.str s))
  | emptyArray {gap : List Char} (hgap : IsGap gap) :
    Spells words ('[' :: (gap ++ [']'])) (.value (.arr []))
  | array {gap p : List Char} {vs : List (Json σ)} (hgap : IsGap gap) (h : Spells words p (.items vs)) :
    Spells words ('[' :: (gap ++ p)) (.value (.arr vs))
  | emptyObject {gap : List Char} (hgap : IsGap gap) :
    Spells words ('\x7b' :: (gap ++ ['\x7d'])) (.value (.obj []))
  | object {gap p : List Char} {fs : List (σ × Json σ)} (hgap : IsGap gap)
      (h : Spells words p (.fields fs)) :
    Spells words ('\x7b' :: (gap ++ p)) (.value (.obj (Keyed.ofPairs fs)))
  | lastItem {p gap : List Char} {v : Json σ} (h : Spells words p (.value v)) (hgap : IsGap gap) :
    Spells words (p ++ (gap ++ [']'])) (.items [v])
  | item {p gap gap' q : List Char} {v : Json σ} {vs : List (Json σ)} (h : Spells words p (.value v))
      (hgap : IsGap gap) (hgap' : IsGap gap') (hq : Spells words q (.items vs)) :
    Spells words (p ++ (gap ++ ',' :: (gap' ++ q))) (.items (v :: vs))
  | lastField {name gap gap' p gap'' : List Char} {k : σ} {v : Json σ} (hname : StringText name k)
      (hgap : IsGap gap) (hgap' : IsGap gap') (h : Spells words p (.value v)) (hgap'' : IsGap gap'') :
    Spells words (name ++ (gap ++ ':' :: (gap' ++ (p ++ (gap'' ++ ['\x7d']))))) (.fields [(k, v)])
  | field {name gap gap' p gap'' gap₃ q : List Char} {k : σ} {v : Json σ}
      {fs : List (σ × Json σ)} (hname : StringText name k) (hgap : IsGap gap) (hgap' : IsGap gap')
      (h : Spells words p (.value v)) (hgap'' : IsGap gap'') (hgap₃ : IsGap gap₃)
      (hq : Spells words q (.fields fs)) :
    Spells words (name ++ (gap ++ ':' :: (gap' ++ (p ++ (gap'' ++ ',' :: (gap₃ ++ q))))))
      (.fields ((k, v) :: fs))

def Denotes (words : List (List Char × Json σ)) (text : List Char) (v : Json σ) : Prop :=
  ∃ front p back, text = front ++ (p ++ back) ∧ IsGap front ∧ IsGap back ∧ Spells words p (.value v)

theorem Spells.mono {ws ws' : List (List Char × Json σ)} (hws : ∀ w ∈ ws, w ∈ ws') {p : List Char}
    {x : Phrase σ} (h : Spells ws p x) : Spells ws' p x := by
  induction h with
  | word h => exact .word (hws _ h)
  | number h => exact .number h
  | string h => exact .string h
  | emptyArray hgap => exact .emptyArray hgap
  | array hgap _ ih => exact .array hgap ih
  | emptyObject hgap => exact .emptyObject hgap
  | object hgap _ ih => exact .object hgap ih
  | lastItem _ hgap ih => exact .lastItem ih hgap
  | item _ hgap hgap' _ ih ihq => exact .item ih hgap hgap' ihq
  | lastField hname hgap hgap' _ hgap'' ih => exact .lastField hname hgap hgap' ih hgap''
  | field hname hgap hgap' _ hgap'' hgap₃ _ ih ihq =>
    exact .field hname hgap hgap' ih hgap'' hgap₃ ihq

/-- What the standard takes, the reader's grammar takes. -/
theorem Denotes.of_plain {text : List Char} {v : Json σ} (h : Denotes plainWords text v) :
    Denotes words text v := by
  obtain ⟨front, p, back, htext, hfront, hback, hp⟩ := h
  refine ⟨front, p, back, htext, hfront, hback, hp.mono fun w hw => ?_⟩
  rw [words_eq]
  exact List.mem_append_left _ hw

end ContractBindings.Json
