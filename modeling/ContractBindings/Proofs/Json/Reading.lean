import ContractBindings.Proofs.Json.Grammar
import ContractBindings.Proofs.Text.Split
import Mathlib.Data.List.TakeWhile
import Mathlib.Tactic.IntervalCases

/-!
# The reader and the grammar

The reader gives a value exactly if the text denotes it (`read_eq_ok`). One
induction is over the fuel: what the reader takes is spelled. The other is
over the grammar: what is spelled is taken, with any fuel that is no less than
twice the length of the text, and if what follows does not go on with a number.
-/

namespace ContractBindings.Json

open Decimal

variable {σ : Type} {p rest : List Char} {v : Json σ}

/-! ## Blanks -/

theorem skipSpace_cons {c : Char} (h : isSpace c = false) (cs : List Char) :
    skipSpace (c :: cs) = c :: cs := by
  rw [skipSpace, List.dropWhile_cons, h, if_neg Bool.false_ne_true]

theorem skipSpace_append {gap : List Char} (h : IsGap gap) (cs : List Char) :
    skipSpace (gap ++ cs) = skipSpace cs :=
  List.dropWhile_append_of_pos h

theorem exists_gap (cs : List Char) : ∃ gap, cs = gap ++ skipSpace cs ∧ IsGap gap :=
  ⟨cs.takeWhile isSpace, List.takeWhile_append_dropWhile.symm, fun _ hc => List.mem_takeWhile_imp hc⟩

theorem endsNumber_cons {c : Char} (h : c ∈ [',', ']', '\x7d', '\n', ' ', '\t', '\r'])
    (cs : List Char) : EndsNumber (c :: cs) := by
  intro d hd
  cases hd
  simp only [List.mem_cons, List.not_mem_nil, or_false] at h
  rcases h with rfl | rfl | rfl | rfl | rfl | rfl | rfl <;> decide

theorem endsNumber_gap {gap : List Char} (h : IsGap gap) {c : Char} (hc : c ∈ [',', ']', '\x7d'])
    (cs : List Char) : EndsNumber (gap ++ c :: cs) := by
  cases gap with
  | nil => exact endsNumber_cons (by simp at hc ⊢; tauto) cs
  | cons d gap =>
    have hd := h d List.mem_cons_self
    simp only [isSpace, Bool.or_eq_true, decide_eq_true_eq] at hd
    exact endsNumber_cons (by simp; tauto) _

/-! ## The first character -/

def leads : List Char :=
  ['n', 't', 'f', 'N', 'I', '"', '[', '\x7b', '-', '0', '1', '2', '3', '4', '5', '6', '7', '8', '9']

theorem leads_spec : ∀ c ∈ leads, isSpace c = false ∧ c ≠ ']' ∧ c ≠ '\x7d' ∧ c ≠ '\uFEFF' := by
  have hall : leads.all (fun c => isSpace c = false ∧ c ≠ ']' ∧ c ≠ '\x7d' ∧ c ≠ '\uFEFF') = true := by
    decide
  intro c hc
  exact of_decide_eq_true (List.all_eq_true.mp hall c hc)

theorem NumberText.lead (h : NumberText p v) : ∃ c cs, p = c :: cs ∧ c ∈ leads ∧
    c ∉ ['"', '[', '\x7b'] := by
  obtain @⟨negative, w, f, e, whole, part, power, hw, hf, he⟩ := h
  obtain ⟨d, ds, rfl, hd, cs, rfl⟩ := wholeText_head hw
  cases negative with
  | true => exact ⟨_, _, rfl, by decide, by decide⟩
  | false =>
    have hdigit : ∀ d < 10, d.digitChar ∈ leads ∧ d.digitChar ∉ ['"', '[', '\x7b'] := by decide
    exact ⟨_, _, rfl, hdigit d hd⟩

theorem word_lead (h : (p, v) ∈ words) : ∃ c cs, p = c :: cs ∧ c ∈ leads ∧ c ∉ ['"', '[', '\x7b'] := by
  simp only [words, List.mem_cons, List.not_mem_nil, or_false, Prod.mk.injEq] at h
  rcases h with ⟨rfl, -⟩ | ⟨rfl, -⟩ | ⟨rfl, -⟩ | ⟨rfl, -⟩ | ⟨rfl, -⟩ | ⟨rfl, -⟩ <;>
    exact ⟨_, _, rfl, by decide, by decide⟩

theorem StringText.lead [JsonString σ] {s : σ} (h : StringText p s) : ∃ cs, p = '"' :: cs := by
  obtain ⟨h⟩ := h
  exact ⟨_, rfl⟩

/-! ## Words and numbers -/

/-- No word starts as a number does. -/
theorem scalar?_eq_number? {d : Nat} (hd : d < 10) (cs : List Char) :
    @scalar? σ (d.digitChar :: cs) = number? (d.digitChar :: cs) ∧
      @scalar? σ ('-' :: d.digitChar :: cs) = number? ('-' :: d.digitChar :: cs) := by
  interval_cases d <;> exact ⟨rfl, rfl⟩

theorem scalar?_number (h : NumberText p v) (hr : EndsNumber rest) :
    scalar? (p ++ rest) = some (v, rest) := by
  have hnumber := number?_append h hr
  obtain @⟨negative, w, f, e, whole, part, power, hw, hf, he⟩ := h
  obtain ⟨d, ds, rfl, hd, cs, rfl⟩ := wholeText_head hw
  cases negative with
  | true => exact (scalar?_eq_number? hd _).2.trans hnumber
  | false => exact (scalar?_eq_number? hd _).1.trans hnumber

theorem scalar?_word (h : (p, v) ∈ words) : scalar? (p ++ rest) = some (v, rest) := by
  simp only [words, List.mem_cons, List.not_mem_nil, or_false, Prod.mk.injEq] at h
  rcases h with ⟨rfl, rfl⟩ | ⟨rfl, rfl⟩ | ⟨rfl, rfl⟩ | ⟨rfl, rfl⟩ | ⟨rfl, rfl⟩ | ⟨rfl, rfl⟩ <;> rfl

variable [JsonString σ] [DecidableEq σ]

theorem scalar?_sound {cs : List Char} (h : scalar? cs = some (v, rest)) :
    ∃ p, cs = p ++ rest ∧ Spells words p (.value v) := by
  unfold scalar? at h
  split at h
  · next found hfound =>
    cases h
    obtain ⟨⟨w, v'⟩, hw, hlead⟩ := List.exists_of_findSome?_eq_some hfound
    obtain ⟨rest', hrest, he⟩ := Option.map_eq_some_iff.mp hlead
    cases he
    exact ⟨w, Text.dropLead?_eq_some_iff.mp hrest, .word hw⟩
  · obtain ⟨p, hp, hnumber⟩ := number?_sound h
    exact ⟨p, hp, .number hnumber⟩

theorem value_scalar {c : Char} {cs : List Char} (h : c ∉ ['"', '[', '\x7b']) (fuel : Nat)
    (hv : scalar? (c :: cs) = some (v, rest)) : value (fuel + 1) (c :: cs) = .ok (v, rest) := by
  simp only [List.mem_cons, List.not_mem_nil, or_false, not_or] at h
  rw [value.eq_def]
  dsimp only
  split
  · next he => exact absurd (List.cons.inj he).1 h.1
  · next he => exact absurd (List.cons.inj he).1 h.2.1
  · next he => exact absurd (List.cons.inj he).1 h.2.2
  · rw [hv]

/-! ## Phrases -/

theorem Spells.lead {x : Phrase σ} (h : Spells words p x) : ∃ c cs, p = c :: cs ∧ c ∈ leads := by
  have happend : ∀ {p : List Char}, (∃ c cs, p = c :: cs ∧ c ∈ leads) → ∀ q,
      ∃ c cs, p ++ q = c :: cs ∧ c ∈ leads := by
    rintro _ ⟨c, cs, rfl, hc⟩ q
    exact ⟨c, cs ++ q, rfl, hc⟩
  induction h with
  | word h =>
    obtain ⟨c, cs, hp, hc, -⟩ := word_lead h
    exact ⟨c, cs, hp, hc⟩
  | number h =>
    obtain ⟨c, cs, hp, hc, -⟩ := h.lead
    exact ⟨c, cs, hp, hc⟩
  | string h =>
    obtain ⟨cs, rfl⟩ := h.lead
    exact ⟨_, _, rfl, by decide⟩
  | emptyArray | array => exact ⟨_, _, rfl, by decide⟩
  | emptyObject | object => exact ⟨_, _, rfl, by decide⟩
  | lastItem _ _ ih => exact happend ih _
  | item _ _ _ _ ih => exact happend ih _
  | lastField hname | field hname =>
    obtain ⟨cs, rfl⟩ := hname.lead
    exact ⟨_, _, rfl, by decide⟩

theorem skipSpace_spells {x : Phrase σ} (h : Spells words p x) (rest : List Char) :
    skipSpace (p ++ rest) = p ++ rest := by
  obtain ⟨c, cs, rfl, hc⟩ := h.lead
  exact skipSpace_cons (leads_spec c hc).1 _

/-! ## What the reader takes is spelled -/

structure Sound (σ : Type) [JsonString σ] [DecidableEq σ] (fuel : Nat) : Prop where
  value : ∀ {cs rest} {v : Json σ}, value fuel cs = .ok (v, rest) →
    ∃ p, cs = p ++ rest ∧ Spells words p (.value v)
  items : ∀ {cs rest} {vs : List (Json σ)}, items fuel cs = .ok (vs, rest) →
    ∃ p, cs = p ++ rest ∧ Spells words p (.items vs)
  fields : ∀ {cs rest} {fs : List (σ × Json σ)}, fields fuel cs = .ok (fs, rest) →
    ∃ p, cs = p ++ rest ∧ Spells words p (.fields fs)

theorem value_sound {fuel : Nat} (ih : Sound σ fuel) {cs : List Char}
    (h : value (fuel + 1) cs = .ok (v, rest)) : ∃ p, cs = p ++ rest ∧ Spells words p (.value v) := by
  rw [value.eq_def] at h
  dsimp only at h
  split at h
  · obtain ⟨⟨s, rest'⟩, hstring, he⟩ := except_bind_eq_ok.mp h
    cases he
    obtain ⟨p, hp, htext⟩ := stringAfterQuote_sound hstring
    exact ⟨p, hp, .string htext⟩
  · next cs =>
    obtain ⟨gap, hgap, hblank⟩ := exists_gap cs
    split at h
    · next rest' hclose =>
      cases h
      exact ⟨'[' :: (gap ++ [']']), by rw [hgap, hclose]; simp, .emptyArray hblank⟩
    · obtain ⟨⟨vs, rest'⟩, hitems, he⟩ := except_bind_eq_ok.mp h
      cases he
      obtain ⟨p, hp, hspells⟩ := ih.items hitems
      exact ⟨'[' :: (gap ++ p), by rw [hgap, hp]; simp, .array hblank hspells⟩
  · next cs =>
    obtain ⟨gap, hgap, hblank⟩ := exists_gap cs
    split at h
    · next rest' hclose =>
      cases h
      exact ⟨'\x7b' :: (gap ++ ['\x7d']), by rw [hgap, hclose]; simp, .emptyObject hblank⟩
    · obtain ⟨⟨fs, rest'⟩, hfields, he⟩ := except_bind_eq_ok.mp h
      cases he
      obtain ⟨p, hp, hspells⟩ := ih.fields hfields
      exact ⟨'\x7b' :: (gap ++ p), by rw [hgap, hp]; simp, .object hblank hspells⟩
  · split at h
    · next found hfound =>
      cases h
      exact scalar?_sound hfound
    · cases h

theorem items_sound {fuel : Nat} (ih : Sound σ fuel) {cs : List Char} {vs : List (Json σ)}
    (h : items (fuel + 1) cs = .ok (vs, rest)) : ∃ p, cs = p ++ rest ∧ Spells words p (.items vs) := by
  rw [items] at h
  obtain ⟨⟨v, rest₁⟩, hvalue, h⟩ := except_bind_eq_ok.mp h
  obtain ⟨p, hcs, hp⟩ := ih.value hvalue
  obtain ⟨gap, hgap, hblank⟩ := exists_gap rest₁
  dsimp only at h
  split at h
  · next rest₂ hclose =>
    cases h
    exact ⟨p ++ (gap ++ [']']), by rw [hcs, hgap, hclose]; simp, .lastItem hp hblank⟩
  · next rest₂ hcomma =>
    obtain ⟨gap', hgap', hblank'⟩ := exists_gap rest₂
    obtain ⟨⟨vs', rest₃⟩, hitems, he⟩ := except_bind_eq_ok.mp h
    cases he
    obtain ⟨q, hq, hspells⟩ := ih.items hitems
    refine ⟨p ++ (gap ++ ',' :: (gap' ++ q)), ?_, .item hp hblank hblank' hspells⟩
    rw [hcs, hgap, hcomma, hgap', hq]
    simp
  · cases h

theorem fields_sound {fuel : Nat} (ih : Sound σ fuel) {cs : List Char} {fs : List (σ × Json σ)}
    (h : fields (fuel + 1) cs = .ok (fs, rest)) :
    ∃ p, cs = p ++ rest ∧ Spells words p (.fields fs) := by
  rw [fields.eq_def] at h
  dsimp only at h
  split at h
  · next cs =>
    obtain ⟨⟨k, rest₁⟩, hstring, h⟩ := except_bind_eq_ok.mp h
    obtain ⟨name, hname, htext⟩ := stringAfterQuote_sound hstring
    obtain ⟨gap, hgap, hblank⟩ := exists_gap rest₁
    dsimp only at h
    split at h
    · next rest₂ hcolon =>
      obtain ⟨gap', hgap', hblank'⟩ := exists_gap rest₂
      obtain ⟨⟨v, rest₃⟩, hvalue, h⟩ := except_bind_eq_ok.mp h
      obtain ⟨p, hp, hspells⟩ := ih.value hvalue
      obtain ⟨gap'', hgap'', hblank''⟩ := exists_gap rest₃
      dsimp only at h
      split at h
      · next rest₄ hclose =>
        cases h
        refine ⟨_, ?_, .lastField htext hblank hblank' hspells hblank''⟩
        rw [hname, hgap, hcolon, hgap', hp, hgap'', hclose]
        simp
      · next rest₄ hcomma =>
        obtain ⟨gap₃, hgap₃, hblank₃⟩ := exists_gap rest₄
        obtain ⟨⟨fs', rest₅⟩, hfields, he⟩ := except_bind_eq_ok.mp h
        cases he
        obtain ⟨q, hq, hmore⟩ := ih.fields hfields
        refine ⟨_, ?_, .field htext hblank hblank' hspells hblank'' hblank₃ hmore⟩
        rw [hname, hgap, hcolon, hgap', hp, hgap'', hcomma, hgap₃, hq]
        simp
      · cases h
    · cases h
  · cases h

theorem sound : ∀ fuel, Sound σ fuel
  | 0 => ⟨fun h => (by cases h), fun h => (by cases h), fun h => (by cases h)⟩
  | fuel + 1 => ⟨value_sound (sound fuel), items_sound (sound fuel), fields_sound (sound fuel)⟩

/-! ## What is spelled the reader takes -/

def Phrase.IsTaken (p : List Char) : Phrase σ → Prop
  | .value v => ∀ fuel rest, 2 * p.length ≤ fuel → EndsNumber rest →
    Json.value fuel (p ++ rest) = .ok (v, rest)
  | .items vs => ∀ fuel rest, 2 * p.length ≤ fuel → Json.items fuel (p ++ rest) = .ok (vs, rest)
  | .fields fs => ∀ fuel rest, 2 * p.length ≤ fuel → Json.fields fuel (p ++ rest) = .ok (fs, rest)

theorem skipSpace_close {gap : List Char} (h : IsGap gap) {c : Char} (hc : isSpace c = false)
    (cs : List Char) : skipSpace (gap ++ c :: cs) = c :: cs := by
  rw [skipSpace_append h, skipSpace_cons hc]

theorem skipSpace_gap_spells {gap : List Char} (h : IsGap gap) {x : Phrase σ} (hp : Spells words p x)
    (rest : List Char) : skipSpace (gap ++ (p ++ rest)) = p ++ rest := by
  rw [skipSpace_append h, skipSpace_spells hp]

section
variable {fuel : Nat} {gap gap' gap'' gap₃ name q : List Char} {vs : List (Json σ)} {k : σ}
  {fs : List (σ × Json σ)}

theorem value_string {s : σ} (h : StringText p s) :
    value (fuel + 1) (p ++ rest) = .ok (.str s, rest) := by
  obtain ⟨cs, hp, hstring⟩ := stringAfterQuote_append h rest
  rw [hp, value, hstring]
  rfl

theorem value_array (hgap : IsGap gap) (hp : Spells words p (.items vs))
    (h : items fuel (p ++ rest) = .ok (vs, rest)) :
    value (fuel + 1) ('[' :: (gap ++ (p ++ rest))) = .ok (.arr vs, rest) := by
  obtain ⟨c, cs, hc, hlead⟩ := hp.lead
  rw [value, skipSpace_gap_spells hgap hp]
  split
  · next he =>
    rw [hc] at he
    exact absurd (List.cons.inj he).1 (leads_spec c hlead).2.1
  · rw [h]
    rfl

theorem value_object (hgap : IsGap gap) (hp : Spells words p (.fields fs))
    (h : fields fuel (p ++ rest) = .ok (fs, rest)) :
    value (fuel + 1) ('\x7b' :: (gap ++ (p ++ rest))) = .ok (.obj (Keyed.ofPairs fs), rest) := by
  obtain ⟨c, cs, hc, hlead⟩ := hp.lead
  rw [value, skipSpace_gap_spells hgap hp]
  split
  · next he =>
    rw [hc] at he
    exact absurd (List.cons.inj he).1 (leads_spec c hlead).2.2.1
  · rw [h]
    rfl

theorem items_last (hgap : IsGap gap)
    (h : value fuel (p ++ (gap ++ ']' :: rest)) = .ok (v, gap ++ ']' :: rest)) :
    items (fuel + 1) (p ++ (gap ++ ']' :: rest)) = .ok ([v], rest) := by
  rw [items, h, except_ok_bind]
  dsimp only
  rw [skipSpace_close hgap rfl]
  rfl

theorem items_cons (hgap : IsGap gap) (hgap' : IsGap gap') (hq : Spells words q (.items vs))
    (h : value fuel (p ++ (gap ++ ',' :: (gap' ++ (q ++ rest)))) =
      .ok (v, gap ++ ',' :: (gap' ++ (q ++ rest))))
    (hmore : items fuel (q ++ rest) = .ok (vs, rest)) :
    items (fuel + 1) (p ++ (gap ++ ',' :: (gap' ++ (q ++ rest)))) = .ok (v :: vs, rest) := by
  rw [items, h, except_ok_bind]
  dsimp only
  rw [skipSpace_close hgap rfl]
  show (items fuel (skipSpace (gap' ++ _)) >>= fun x => Except.ok (v :: x.1, x.2)) = _
  rw [skipSpace_gap_spells hgap' hq, hmore]
  rfl

/-- A field up to its value. -/
theorem fields_value (hname : StringText name k) (hgap : IsGap gap) (hgap' : IsGap gap')
    (hp : Spells words p (.value v)) (h : value fuel (p ++ rest) = .ok (v, rest)) :
    fields (fuel + 1) (name ++ (gap ++ ':' :: (gap' ++ (p ++ rest)))) =
      match skipSpace rest with
      | '\x7d' :: rest => .ok ([(k, v)], rest)
      | ',' :: rest => do
        let (fs, rest) ← fields fuel (skipSpace rest)
        .ok ((k, v) :: fs, rest)
      | rest => .error (.comma, rest) := by
  obtain ⟨cs, hn, hstring⟩ := stringAfterQuote_append hname (gap ++ ':' :: (gap' ++ (p ++ rest)))
  rw [hn, fields, hstring, except_ok_bind]
  dsimp only
  rw [skipSpace_close hgap rfl]
  show (value fuel (skipSpace (gap' ++ _)) >>= _) = _
  rw [skipSpace_gap_spells hgap' hp, h]
  rfl

end

theorem Spells.isTaken {x : Phrase σ} (h : Spells words p x) : x.IsTaken p := by
  -- no phrase is empty, so there is fuel for the first step
  have hpos : ∀ {n : Nat} (fuel : Nat), 2 * (n + 1) ≤ fuel → ∃ m, fuel = m + 1 := by
    intro n fuel hf
    exact ⟨fuel - 1, by omega⟩
  induction h with
  | @word p v h =>
    intro fuel rest hf hr
    obtain ⟨c, cs, rfl, -, hc⟩ := word_lead h
    obtain ⟨fuel, rfl⟩ := hpos fuel hf
    exact value_scalar hc fuel (scalar?_word h)
  | @number p v h =>
    intro fuel rest hf hr
    have hscalar := scalar?_number h hr
    obtain ⟨c, cs, rfl, -, hc⟩ := h.lead
    obtain ⟨fuel, rfl⟩ := hpos fuel hf
    exact value_scalar hc fuel hscalar
  | @string p s h =>
    intro fuel rest hf hr
    obtain ⟨cs, rfl⟩ := h.lead
    obtain ⟨fuel, rfl⟩ := hpos fuel hf
    exact value_string h
  | @emptyArray gap hgap =>
    intro fuel rest hf hr
    obtain ⟨fuel, rfl⟩ := hpos fuel hf
    rw [List.cons_append, List.append_assoc, List.singleton_append, value, skipSpace_close hgap rfl]
    rfl
  | @array gap p vs hgap hp ih =>
    intro fuel rest hf hr
    obtain ⟨fuel, rfl⟩ := hpos fuel hf
    rw [List.cons_append, List.append_assoc]
    refine value_array hgap hp (ih fuel rest ?_)
    simp only [List.length_cons, List.length_append] at hf
    omega
  | @emptyObject gap hgap =>
    intro fuel rest hf hr
    obtain ⟨fuel, rfl⟩ := hpos fuel hf
    rw [List.cons_append, List.append_assoc, List.singleton_append, value, skipSpace_close hgap rfl]
    rfl
  | @object gap p fs hgap hp ih =>
    intro fuel rest hf hr
    obtain ⟨fuel, rfl⟩ := hpos fuel hf
    rw [List.cons_append, List.append_assoc]
    refine value_object hgap hp (ih fuel rest ?_)
    simp only [List.length_cons, List.length_append] at hf
    omega
  | @lastItem p gap v hp hgap ih =>
    intro fuel rest hf
    simp only [List.length_append, List.length_singleton] at hf
    obtain ⟨fuel, rfl⟩ := hpos (n := p.length + gap.length) fuel (by omega)
    have hvalue := ih fuel (gap ++ ']' :: rest) (by omega) (endsNumber_gap hgap (by simp) _)
    rw [List.append_assoc, List.append_assoc, List.singleton_append]
    exact items_last hgap hvalue
  | @item p gap gap' q v vs hp hgap hgap' hq ih ihq =>
    intro fuel rest hf
    simp only [List.length_append, List.length_cons] at hf
    obtain ⟨fuel, rfl⟩ := hpos (n := p.length + gap.length + gap'.length + q.length) fuel (by omega)
    have hvalue := ih fuel (gap ++ ',' :: (gap' ++ (q ++ rest))) (by omega)
      (endsNumber_gap hgap (by simp) _)
    simp only [List.append_assoc, List.cons_append]
    exact items_cons hgap hgap' hq hvalue (ihq fuel rest (by omega))
  | @lastField name gap gap' p gap'' k v hname hgap hgap' hp hgap'' ih =>
    intro fuel rest hf
    simp only [List.length_append, List.length_cons] at hf
    obtain ⟨fuel, rfl⟩ := hpos (n := p.length) fuel (by omega)
    have hvalue := ih fuel (gap'' ++ '\x7d' :: rest) (by omega) (endsNumber_gap hgap'' (by simp) _)
    simp only [List.append_assoc, List.cons_append, List.nil_append]
    rw [fields_value hname hgap hgap' hp hvalue, skipSpace_close hgap'' rfl]
    rfl
  | @field name gap gap' p gap'' gap₃ q k v fs hname hgap hgap' hp hgap'' hgap₃ hq ih ihq =>
    intro fuel rest hf
    simp only [List.length_append, List.length_cons] at hf
    obtain ⟨fuel, rfl⟩ := hpos (n := p.length) fuel (by omega)
    have hvalue := ih fuel (gap'' ++ ',' :: (gap₃ ++ (q ++ rest))) (by omega)
      (endsNumber_gap hgap'' (by simp) _)
    simp only [List.append_assoc, List.cons_append]
    rw [fields_value hname hgap hgap' hp hvalue, skipSpace_close hgap'' rfl]
    show (fields fuel (skipSpace (gap₃ ++ _)) >>= fun x => Except.ok ((k, v) :: x.1, x.2)) = _
    rw [skipSpace_gap_spells hgap₃ hq, ihq fuel rest (by omega)]
    rfl

/-! ## Whole texts -/

theorem skipSpace_gap {gap : List Char} (h : IsGap gap) : skipSpace gap = [] := by
  rw [← List.append_nil gap, skipSpace_append h]
  rfl

theorem endsNumber_of_gap {gap : List Char} (h : IsGap gap) : EndsNumber gap := by
  cases gap with
  | nil =>
    intro c hc
    cases hc
  | cons c gap =>
    have hc := h c List.mem_cons_self
    simp only [isSpace, Bool.or_eq_true, decide_eq_true_eq] at hc
    exact endsNumber_cons (by simp; tauto) _

theorem whole_eq_ok {text : List Char} :
    whole text = .ok (v, []) ↔ Denotes words text v := by
  constructor
  · intro h
    obtain ⟨⟨v', rest⟩, hvalue, h⟩ := except_bind_eq_ok.mp h
    obtain ⟨front, htext, hfront⟩ := exists_gap text
    obtain ⟨p, hp, hspells⟩ := (sound _).value hvalue
    obtain ⟨back, hback, hgap⟩ := exists_gap rest
    dsimp only at h
    split at h
    · next hend =>
      cases h
      refine ⟨front, p, back, ?_, hfront, hgap, hspells⟩
      rw [hend, List.append_nil] at hback
      rw [← hback, ← hp, ← htext]
    · cases h
  · rintro ⟨front, p, back, rfl, hfront, hback, hp⟩
    have hvalue := hp.isTaken (2 * (front ++ (p ++ back)).length + 2) back
      (by simp only [List.length_append]; omega) (endsNumber_of_gap hback)
    unfold whole
    rw [skipSpace_gap_spells hfront hp, hvalue, except_ok_bind]
    dsimp only
    rw [skipSpace_gap hback]

theorem whole_rest {text rest : List Char} (h : whole text = .ok (v, rest)) : rest = [] := by
  obtain ⟨⟨v', rest'⟩, -, h⟩ := except_bind_eq_ok.mp h
  dsimp only at h
  split at h
  · cases h
    rfl
  · cases h

theorem Denotes.head? {text : List Char} (h : Denotes words text v) :
    text.head? ≠ some '\uFEFF' := by
  obtain ⟨front, p, back, rfl, hfront, -, hp⟩ := h
  obtain ⟨c, cs, rfl, hc⟩ := hp.lead
  cases front with
  | nil =>
    intro he
    exact (leads_spec c hc).2.2.2 (Option.some.inj he)
  | cons d front =>
    intro he
    obtain rfl : d = '\uFEFF' := Option.some.inj he
    exact absurd (hfront _ List.mem_cons_self) (by decide)

/-- **The reader gives the value that a text denotes.** -/
theorem read_eq_ok {text : List Char} : read text = .ok v ↔ Denotes words text v := by
  constructor
  · intro h
    unfold read at h
    split at h
    · cases h
    · split at h
      · next rest hwhole =>
        cases h
        obtain rfl := whole_rest hwhole
        exact whole_eq_ok.mp hwhole
      · cases h
  · intro h
    unfold read
    rw [if_neg h.head?, whole_eq_ok.mpr h]

end ContractBindings.Json
