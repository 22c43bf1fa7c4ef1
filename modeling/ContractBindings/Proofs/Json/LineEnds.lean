import ContractBindings.Proofs.Json.Reading

/-!
# Line ends in JSON text

Line ends stand only in the gaps between the tokens of a text, where any blank
does, so a text denotes what it denotes with other line ends. The argument is
made for any rewriting of text that leaves tokens alone and makes gaps of
gaps; to unify the line ends is one, and to undo it is another.
-/

namespace ContractBindings.Json

open Decimal

variable {σ : Type}

/-! ## Tokens -/

def IsPrinted (p : List Char) : Prop := ∀ c ∈ p, 32 ≤ c.toNat

theorem isPrinted_append {p q : List Char} (hp : IsPrinted p) (hq : IsPrinted q) :
    IsPrinted (p ++ q) :=
  fun c hc => (List.mem_append.mp hc).elim (hp c) (hq c)

theorem isPrinted_cons {c : Char} {p : List Char} (hc : 32 ≤ c.toNat) (hp : IsPrinted p) :
    IsPrinted (c :: p) :=
  List.forall_mem_cons.mpr ⟨hc, hp⟩

theorem isPrinted_nil : IsPrinted [] := by simp [IsPrinted]

theorem isPrinted_digits {ds : List Nat} (h : ∀ d ∈ ds, d < 10) : IsPrinted (ds.map Nat.digitChar) := by
  have hdigit : ∀ d < 10, 32 ≤ d.digitChar.toNat := by decide
  intro c hc
  obtain ⟨d, hd, rfl⟩ := List.mem_map.mp hc
  exact hdigit d (h d hd)

theorem WholeText.isPrinted {p : List Char} {ds : List Nat} (h : WholeText p ds) : IsPrinted p := by
  cases h with
  | zero => exact isPrinted_cons (by decide) isPrinted_nil
  | digits _ h => exact isPrinted_digits h

theorem FractionText.isPrinted {p : List Char} {ds : List Nat} (h : FractionText p ds) : IsPrinted p := by
  cases h with
  | none => exact isPrinted_nil
  | digits _ h => exact isPrinted_cons (by decide) (isPrinted_digits h)

theorem SignText.isPrinted {p : List Char} {negative : Bool} (h : SignText p negative) :
    IsPrinted p := by
  cases h with
  | none => exact isPrinted_nil
  | plus | minus => exact isPrinted_cons (by decide) isPrinted_nil

theorem ExponentText.isPrinted {p : List Char} {e : Option Int} (h : ExponentText p e) :
    IsPrinted p := by
  cases h with
  | none => exact isPrinted_nil
  | digits hletter hsign _ h =>
    refine isPrinted_cons ?_ (isPrinted_append hsign.isPrinted (isPrinted_digits h))
    rcases hletter with rfl | rfl <;> decide

theorem NumberText.isPrinted {p : List Char} {v : Json σ} (h : NumberText p v) : IsPrinted p := by
  obtain @⟨negative, w, f, e, whole, part, power, hw, hf, he⟩ := h
  refine isPrinted_append ?_ (isPrinted_append hw.isPrinted (isPrinted_append hf.isPrinted he.isPrinted))
  cases negative with
  | true => exact isPrinted_cons (by decide) isPrinted_nil
  | false => exact isPrinted_nil

/-- What is given for no control character is given for printed ones. -/
theorem printed_of_eq_some {α : Type} {f : Char → Option α} (h : ∀ n < 32, f (Char.ofNat n) = none)
    {c : Char} {a : α} (hc : f c = some a) : 32 ≤ c.toNat := by
  apply Nat.le_of_not_lt
  intro hlt
  have hnone := h c.toNat hlt
  rw [Char.ofNat_toNat, hc] at hnone
  cases hnone

theorem printed_of_hexValue? {c : Char} {n : Nat} (h : Text.hexValue? c = some n) : 32 ≤ c.toNat :=
  printed_of_eq_some (by decide) h

theorem UnitsText.isPrinted {p : List Char} {ns : List Nat} (h : UnitsText p ns) : IsPrinted p := by
  induction h with
  | nil => exact isPrinted_nil
  | plain _ _ hcontrol _ ih => exact isPrinted_cons (Nat.le_of_not_lt hcontrol) ih
  | short he _ ih =>
    exact isPrinted_cons (by decide) (isPrinted_cons (printed_of_eq_some (by decide) he) ih)
  | unit hn _ ih =>
    obtain ⟨a', ha, hn⟩ := Option.bind_eq_some_iff.mp hn
    obtain ⟨b', hb, hn⟩ := Option.bind_eq_some_iff.mp hn
    obtain ⟨c', hc, hn⟩ := Option.bind_eq_some_iff.mp hn
    obtain ⟨d', hd, -⟩ := Option.bind_eq_some_iff.mp hn
    exact isPrinted_cons (by decide) <| isPrinted_cons (by decide) <|
      isPrinted_cons (printed_of_hexValue? ha) <| isPrinted_cons (printed_of_hexValue? hb) <|
      isPrinted_cons (printed_of_hexValue? hc) <| isPrinted_cons (printed_of_hexValue? hd) ih

theorem StringText.isPrinted [JsonString σ] {p : List Char} {s : σ} (h : StringText p s) : IsPrinted p := by
  obtain ⟨h⟩ := h
  exact isPrinted_cons (by decide)
    (isPrinted_append h.isPrinted (isPrinted_cons (by decide) isPrinted_nil))

theorem isPrinted_word {p : List Char} {v : Json σ} (h : (p, v) ∈ words) : IsPrinted p := by
  simp only [words, List.mem_cons, List.not_mem_nil, or_false, Prod.mk.injEq] at h
  rcases h with ⟨rfl, -⟩ | ⟨rfl, -⟩ | ⟨rfl, -⟩ | ⟨rfl, -⟩ | ⟨rfl, -⟩ | ⟨rfl, -⟩ <;>
    simp [IsPrinted]

/-! ## Rewritings -/

/-- A text may be rewritten to another one: up to the end of a token nothing changes, and what becomes
of a gap is a gap. -/
structure IsRewriting (R : List Char → List Char → Prop) : Prop where
  token : ∀ {p rest ds}, IsPrinted p → R (p ++ rest) ds → ∃ ds', ds = p ++ ds' ∧ R rest ds'
  gap : ∀ {g rest ds}, IsGap g → (∀ c, rest.head? = some c → 32 ≤ c.toNat) → R (g ++ rest) ds →
    ∃ g' ds', ds = g' ++ ds' ∧ IsGap g' ∧ R rest ds'

namespace IsRewriting

variable {R : List Char → List Char → Prop} {p rest ds gap : List Char} {x : Phrase σ}

theorem cons (hR : IsRewriting R) {c : Char} (hc : 32 ≤ c.toNat) (h : R (c :: rest) ds) :
    ∃ ds', ds = c :: ds' ∧ R rest ds' :=
  hR.token (isPrinted_cons hc isPrinted_nil) h

/-- A gap in front of a character that is none of a line end. -/
theorem gap_cons (hR : IsRewriting R) (hgap : IsGap gap) {c : Char} (hc : 32 ≤ c.toNat)
    (h : R (gap ++ c :: rest) ds) :
    ∃ gap' ds', ds = gap' ++ c :: ds' ∧ IsGap gap' ∧ R rest ds' := by
  obtain ⟨gap', ds₁, rfl, hgap', h₁⟩ := hR.gap hgap (fun d hd => by cases hd; exact hc) h
  obtain ⟨ds', rfl, h₂⟩ := hR.cons hc h₁
  exact ⟨gap', ds', rfl, hgap', h₂⟩

theorem gap_spells [JsonString σ] [DecidableEq σ] (hR : IsRewriting R) (hgap : IsGap gap)
    (hp : Spells words p x) (h : R (gap ++ (p ++ rest)) ds) :
    ∃ gap' ds', ds = gap' ++ ds' ∧ IsGap gap' ∧ R (p ++ rest) ds' := by
  obtain ⟨c, cs, rfl, hc⟩ := hp.lead
  have hall : ∀ c ∈ leads, 32 ≤ c.toNat := by simp [leads]
  exact hR.gap hgap (fun d hd => by cases hd; exact hall c hc) h

end IsRewriting

variable [JsonString σ] [DecidableEq σ]

/-- What becomes of a text that starts with a phrase still starts with one. -/
theorem Spells.rewrite {R : List Char → List Char → Prop} (hR : IsRewriting R) {p : List Char}
    {x : Phrase σ} (h : Spells words p x) : ∀ {rest ds : List Char}, R (p ++ rest) ds →
      ∃ p' ds', ds = p' ++ ds' ∧ Spells words p' x ∧ R rest ds' := by
  induction h with
  | word h =>
    intro rest ds h₀
    obtain ⟨ds', rfl, h₁⟩ := hR.token (isPrinted_word h) h₀
    exact ⟨_, ds', rfl, .word h, h₁⟩
  | number h =>
    intro rest ds h₀
    obtain ⟨ds', rfl, h₁⟩ := hR.token h.isPrinted h₀
    exact ⟨_, ds', rfl, .number h, h₁⟩
  | string h =>
    intro rest ds h₀
    obtain ⟨ds', rfl, h₁⟩ := hR.token h.isPrinted h₀
    exact ⟨_, ds', rfl, .string h, h₁⟩
  | emptyArray hgap =>
    intro rest ds h₀
    rw [List.cons_append, List.append_assoc] at h₀
    obtain ⟨ds₁, rfl, h₁⟩ := hR.cons (by decide) h₀
    obtain ⟨gap', ds', rfl, hgap', h₂⟩ := hR.gap_cons hgap (by decide) h₁
    exact ⟨_, ds', by simp, .emptyArray hgap', h₂⟩
  | array hgap hp ih =>
    intro rest ds h₀
    rw [List.cons_append, List.append_assoc] at h₀
    obtain ⟨ds₁, rfl, h₁⟩ := hR.cons (by decide) h₀
    obtain ⟨gap', ds₂, rfl, hgap', h₂⟩ := hR.gap_spells hgap hp h₁
    obtain ⟨p', ds', rfl, hp', h₃⟩ := ih h₂
    exact ⟨_, ds', by simp, .array hgap' hp', h₃⟩
  | emptyObject hgap =>
    intro rest ds h₀
    rw [List.cons_append, List.append_assoc] at h₀
    obtain ⟨ds₁, rfl, h₁⟩ := hR.cons (by decide) h₀
    obtain ⟨gap', ds', rfl, hgap', h₂⟩ := hR.gap_cons hgap (by decide) h₁
    exact ⟨_, ds', by simp, .emptyObject hgap', h₂⟩
  | object hgap hp ih =>
    intro rest ds h₀
    rw [List.cons_append, List.append_assoc] at h₀
    obtain ⟨ds₁, rfl, h₁⟩ := hR.cons (by decide) h₀
    obtain ⟨gap', ds₂, rfl, hgap', h₂⟩ := hR.gap_spells hgap hp h₁
    obtain ⟨p', ds', rfl, hp', h₃⟩ := ih h₂
    exact ⟨_, ds', by simp, .object hgap' hp', h₃⟩
  | lastItem hp hgap ih =>
    intro rest ds h₀
    rw [List.append_assoc, List.append_assoc] at h₀
    obtain ⟨p', ds₁, rfl, hp', h₁⟩ := ih h₀
    obtain ⟨gap', ds', rfl, hgap', h₂⟩ := hR.gap_cons hgap (by decide) h₁
    exact ⟨_, ds', by simp, .lastItem hp' hgap', h₂⟩
  | item hp hgap hgap₂ hq ih ihq =>
    intro rest ds h₀
    simp only [List.append_assoc, List.cons_append] at h₀
    obtain ⟨p', ds₁, rfl, hp', h₁⟩ := ih h₀
    obtain ⟨gap', ds₂, rfl, hgap', h₂⟩ := hR.gap_cons hgap (by decide) h₁
    obtain ⟨gap₂', ds₃, rfl, hgap₂', h₃⟩ := hR.gap_spells hgap₂ hq h₂
    obtain ⟨q', ds', rfl, hq', h₄⟩ := ihq h₃
    exact ⟨_, ds', by simp, .item hp' hgap' hgap₂' hq', h₄⟩
  | lastField hname hgap hgap₂ hp hgap₃ ih =>
    intro rest ds h₀
    simp only [List.append_assoc, List.cons_append, List.nil_append] at h₀
    obtain ⟨ds₁, rfl, h₁⟩ := hR.token hname.isPrinted h₀
    obtain ⟨gap', ds₂, rfl, hgap', h₂⟩ := hR.gap_cons hgap (by decide) h₁
    obtain ⟨gap₂', ds₃, rfl, hgap₂', h₃⟩ := hR.gap_spells hgap₂ hp h₂
    obtain ⟨p', ds₄, rfl, hp', h₄⟩ := ih h₃
    obtain ⟨gap₃', ds', rfl, hgap₃', h₅⟩ := hR.gap_cons hgap₃ (by decide) h₄
    exact ⟨_, ds', by simp, .lastField hname hgap' hgap₂' hp' hgap₃', h₅⟩
  | field hname hgap hgap₂ hp hgap₃ hgap₄ hq ih ihq =>
    intro rest ds h₀
    simp only [List.append_assoc, List.cons_append] at h₀
    obtain ⟨ds₁, rfl, h₁⟩ := hR.token hname.isPrinted h₀
    obtain ⟨gap', ds₂, rfl, hgap', h₂⟩ := hR.gap_cons hgap (by decide) h₁
    obtain ⟨gap₂', ds₃, rfl, hgap₂', h₃⟩ := hR.gap_spells hgap₂ hp h₂
    obtain ⟨p', ds₄, rfl, hp', h₄⟩ := ih h₃
    obtain ⟨gap₃', ds₅, rfl, hgap₃', h₅⟩ := hR.gap_cons hgap₃ (by decide) h₄
    obtain ⟨gap₄', ds₆, rfl, hgap₄', h₆⟩ := hR.gap_spells hgap₄ hq h₅
    obtain ⟨q', ds', rfl, hq', h₇⟩ := ihq h₆
    exact ⟨_, ds', by simp, .field hname hgap' hgap₂' hp' hgap₃' hgap₄' hq', h₇⟩

theorem Denotes.rewrite {R : List Char → List Char → Prop} (hR : IsRewriting R)
    (hnil : ∀ {ds}, R [] ds → ds = []) {text ds : List Char} {v : Json σ} (h : Denotes words text v)
    (hd : R text ds) : Denotes words ds v := by
  obtain ⟨front, p, back, rfl, hfront, hback, hp⟩ := h
  obtain ⟨front', ds₁, rfl, hfront', h₁⟩ := hR.gap_spells hfront hp hd
  obtain ⟨p', ds₂, rfl, hp', h₂⟩ := hp.rewrite hR h₁
  rw [← List.append_nil back] at h₂
  obtain ⟨back', ds₃, rfl, hback', h₃⟩ := hR.gap hback (fun c hc => by cases hc) h₂
  obtain rfl := hnil h₃
  exact ⟨front', p', back', by simp, hfront', hback', hp'⟩

/-! ## Unified line ends -/

open Text (unifyLineEnds)

theorem unifyLineEnds_cons {c : Char} (h : c ≠ '\r') (cs : List Char) :
    unifyLineEnds (c :: cs) = c :: unifyLineEnds cs := by
  rw [unifyLineEnds]
  · rintro _ rfl
    exact absurd rfl h
  · exact h

theorem ne_of_printed {c : Char} (h : 32 ≤ c.toNat) : c ≠ '\r' ∧ c ≠ '\n' := by
  constructor <;> rintro rfl <;> exact absurd h (by decide)

/-- The three ways a text can start, with the line ends unified. -/
theorem unifyLineEnds_cases (c : Char) (cs : List Char) :
    (c ≠ '\r' ∧ unifyLineEnds (c :: cs) = c :: unifyLineEnds cs) ∨
      (c = '\r' ∧ ∃ cs', cs = '\n' :: cs' ∧ unifyLineEnds (c :: cs) = '\n' :: unifyLineEnds cs') ∨
      (c = '\r' ∧ cs.head? ≠ some '\n' ∧ unifyLineEnds (c :: cs) = '\n' :: unifyLineEnds cs) := by
  by_cases hc : c = '\r'
  · subst hc
    right
    match cs with
    | [] => exact .inr ⟨rfl, by simp, rfl⟩
    | d :: cs =>
      by_cases hd : d = '\n'
      · subst hd
        exact .inl ⟨rfl, cs, rfl, by rw [unifyLineEnds]⟩
      · refine .inr ⟨rfl, by simpa using hd, ?_⟩
        rw [unifyLineEnds]
        intro cs' he
        exact hd (List.cons.inj he).1
  · exact .inl ⟨hc, unifyLineEnds_cons hc cs⟩

theorem isRewriting_unify : IsRewriting fun cs ds => unifyLineEnds cs = ds where
  token := by
    intro p rest ds hp h
    subst h
    refine ⟨unifyLineEnds rest, ?_, rfl⟩
    induction p with
    | nil => rfl
    | cons c p ih =>
      obtain ⟨hc, hp⟩ := List.forall_mem_cons.mp hp
      rw [List.cons_append, unifyLineEnds_cons (ne_of_printed hc).1, ih hp, List.cons_append]
  gap := by
    intro g rest ds hg hr h
    subst h
    induction hn : g.length using Nat.strongRecOn generalizing g with
    | ind n ih =>
      cases g with
      | nil => exact ⟨[], _, rfl, hg, rfl⟩
      | cons c g =>
        obtain ⟨hc, hg⟩ := List.forall_mem_cons.mp hg
        rcases unifyLineEnds_cases c (g ++ rest) with ⟨-, he⟩ | ⟨-, cs, hcs, he⟩ | ⟨-, -, he⟩
        · obtain ⟨g', ds', hds, hg', hrest⟩ := ih g.length (by simp [← hn]) hg rfl
          exact ⟨c :: g', ds', by rw [List.cons_append, he, hds, List.cons_append],
            List.forall_mem_cons.mpr ⟨hc, hg'⟩, hrest⟩
        · -- the line feed behind the carriage return is a part of the gap
          cases g with
          | nil => exact absurd (hr '\n' (by rw [List.nil_append] at hcs; rw [hcs]; rfl)) (by decide)
          | cons d g =>
            obtain ⟨rfl, hmore⟩ := List.cons.inj hcs
            rw [← show g ++ rest = cs from hmore] at he
            have hlt : g.length < n := by
              rw [← hn, List.length_cons, List.length_cons]
              omega
            obtain ⟨g', ds', hds, hg', hrest⟩ := ih g.length hlt (List.forall_mem_cons.mp hg).2 rfl
            exact ⟨'\n' :: g', ds', by rw [List.cons_append, he, hds, List.cons_append],
              List.forall_mem_cons.mpr ⟨rfl, hg'⟩, hrest⟩
        · obtain ⟨g', ds', hds, hg', hrest⟩ := ih g.length (by simp [← hn]) hg rfl
          exact ⟨'\n' :: g', ds', by rw [List.cons_append, he, hds, List.cons_append],
            List.forall_mem_cons.mpr ⟨rfl, hg'⟩, hrest⟩

/-- What the text with unified line ends starts with, the text starts with. -/
theorem eq_cons_of_unifyLineEnds {cs us : List Char} {u : Char} (h : unifyLineEnds cs = u :: us) :
    ∃ front cs', cs = front ++ cs' ∧ unifyLineEnds cs' = us ∧
      (front = [u] ∨ u = '\n' ∧ IsGap front) := by
  cases cs with
  | nil => cases h
  | cons c cs =>
    rcases unifyLineEnds_cases c cs with ⟨-, he⟩ | ⟨rfl, cs', rfl, he⟩ | ⟨rfl, -, he⟩
    · obtain ⟨rfl, hus⟩ := List.cons.inj (he.symm.trans h)
      exact ⟨[c], cs, rfl, hus, .inl rfl⟩
    · obtain ⟨rfl, hus⟩ := List.cons.inj (he.symm.trans h)
      exact ⟨['\r', '\n'], cs', rfl, hus, .inr ⟨rfl, by simp [IsGap, isSpace]⟩⟩
    · obtain ⟨rfl, hus⟩ := List.cons.inj (he.symm.trans h)
      exact ⟨['\r'], cs, rfl, hus, .inr ⟨rfl, by simp [IsGap, isSpace]⟩⟩

theorem isRewriting_ununify : IsRewriting fun us cs => unifyLineEnds cs = us where
  token := by
    intro p rest cs hp h
    induction p generalizing cs with
    | nil => exact ⟨cs, rfl, h⟩
    | cons u p ih =>
      obtain ⟨hu, hp⟩ := List.forall_mem_cons.mp hp
      obtain ⟨front, cs', rfl, hcs, rfl | ⟨rfl, -⟩⟩ := eq_cons_of_unifyLineEnds h
      · obtain ⟨ds', rfl, hrest⟩ := ih hp hcs
        exact ⟨ds', rfl, hrest⟩
      · exact absurd hu (by decide)
  gap := by
    intro g rest cs hg _ h
    induction g generalizing cs with
    | nil => exact ⟨[], cs, rfl, hg, h⟩
    | cons u g ih =>
      obtain ⟨hu, hg⟩ := List.forall_mem_cons.mp hg
      obtain ⟨front, cs', rfl, hcs, hfront⟩ := eq_cons_of_unifyLineEnds h
      obtain ⟨g', ds', rfl, hg', hrest⟩ := ih hg hcs
      have hgap : IsGap front := by
        rcases hfront with rfl | ⟨-, hgap⟩
        · exact List.forall_mem_singleton.mpr hu
        · exact hgap
      refine ⟨front ++ g', ds', by simp, ?_, hrest⟩
      intro c hc
      exact (List.mem_append.mp hc).elim (hgap c) (hg' c)

/-- **A text denotes what it denotes with its line ends unified.** -/
theorem denotes_unifyLineEnds {cs : List Char} {v : Json σ} :
    Denotes words (unifyLineEnds cs) v ↔ Denotes words cs v := by
  constructor
  · intro h
    refine h.rewrite isRewriting_ununify (fun {ds} hd => ?_) rfl
    cases ds with
    | nil => rfl
    | cons c ds =>
      rcases unifyLineEnds_cases c ds with ⟨-, he⟩ | ⟨-, _, -, he⟩ | ⟨-, -, he⟩ <;>
        exact absurd (he.symm.trans hd) (List.cons_ne_nil _ _)
  · intro h
    exact h.rewrite isRewriting_unify (fun hd => hd.symm) rfl

end ContractBindings.Json
