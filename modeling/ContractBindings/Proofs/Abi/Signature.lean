import ContractBindings.Abi.Entry

/-!
# Signatures are unambiguous

A canonical type is read back from the front of a text: an elementary type is
not empty and holds none of the marks `(`, `)` and `,`, a tuple starts with a
mark, and what follows a type starts with a mark or is nothing. So a text is
the canonical form of one list of shapes at most (`listChars_append_inj`),
and a signature belongs to one name and one list of shapes
(`signature_inj`).
-/

namespace ContractBindings.Abi

/-! ## Marks -/

def isMark (c : Char) : Bool := c = '(' || c = ')' || c = ','

def isPlain (cs : List Char) : Bool := cs.all (!isMark ·)

def Stops (p : Char → Bool) (cs : List Char) : Prop := ∀ c, cs.head? = some c → p c = false

theorem stops_cons {p : Char → Bool} {c : Char} (h : p c = false) (cs : List Char) :
    Stops p (c :: cs) := by
  intro d hd
  cases hd; exact h

theorem takeWhile_of_stops {p : Char → Bool} {cs : List Char} (h : Stops p cs) :
    cs.takeWhile p = [] := by
  cases cs with
  | nil => rfl
  | cons c cs => rw [List.takeWhile_cons, if_neg (by rw [h c rfl]; decide)]

theorem append_inj_of_stops {p : Char → Bool} {a b r u : List Char} (ha : ∀ c ∈ a, p c = true)
    (hb : ∀ c ∈ b, p c = true) (hr : Stops p r) (hu : Stops p u) (h : a ++ r = b ++ u) :
    a = b ∧ r = u := by
  have ht := congrArg (List.takeWhile p) h
  rw [List.takeWhile_append_of_pos ha, List.takeWhile_append_of_pos hb, takeWhile_of_stops hr,
    takeWhile_of_stops hu, List.append_nil, List.append_nil] at ht
  subst ht
  exact ⟨rfl, List.append_cancel_left h⟩

theorem plain_append_inj {a b r u : List Char} (ha : isPlain a = true) (hb : isPlain b = true)
    (hr : Stops (!isMark ·) r) (hu : Stops (!isMark ·) u) (h : a ++ r = b ++ u) : a = b ∧ r = u :=
  append_inj_of_stops (List.all_eq_true.mp ha) (List.all_eq_true.mp hb) hr hu h

namespace Shape

/-! ## Well-formed shapes -/

mutual
/-- Whether a shape is one of a proper type: an elementary type is named, its name does not start like
that of a tuple, and no name or suffix holds a mark. -/
def isWellFormed : Shape → Bool
  | elementary name =>
    !name.toList.isEmpty && (Text.dropLead? tupleWord name.toList).isNone && isPlain name.toList
  | tuple suffix components => isPlain suffix.toList && areWellFormed components
def areWellFormed : List Shape → Bool
  | [] => true
  | s :: ss => isWellFormed s && areWellFormed ss
end

theorem areWellFormed_iff : ∀ {ss : List Shape},
    areWellFormed ss = true ↔ ∀ s ∈ ss, isWellFormed s = true
  | [] => by simp [areWellFormed]
  | s :: ss => by simp [areWellFormed, @areWellFormed_iff ss]

theorem elementary_head {name : String} (h : isWellFormed (elementary name) = true) :
    ∃ c cs, name.toList = c :: cs ∧ isMark c = false := by
  simp only [isWellFormed, Bool.and_eq_true, Bool.not_eq_true'] at h
  obtain ⟨⟨hne, -⟩, hp⟩ := h
  cases hn : name.toList with
  | nil => rw [hn] at hne; cases hne
  | cons c cs =>
    rw [hn] at hp
    simp only [isPlain, List.all_cons, Bool.and_eq_true, Bool.not_eq_true'] at hp
    exact ⟨c, cs, rfl, hp.1⟩

theorem chars_head {s : Shape} (h : isWellFormed s = true) :
    ∃ c cs, s.chars = c :: cs ∧ c ≠ ')' := by
  cases s with
  | elementary name =>
    obtain ⟨c, cs, hn, hc⟩ := elementary_head h
    refine ⟨c, cs, by rw [chars, hn], fun e => ?_⟩
    subst e; cases hc
  | tuple suffix components =>
    exact ⟨'(', _, by rw [chars, List.cons_append], by decide⟩

theorem listChars_head {s : Shape} (h : isWellFormed s = true) (ss : List Shape) :
    ∃ c cs, listChars (s :: ss) = c :: cs ∧ c ≠ ')' := by
  obtain ⟨c, cs, hs, hc⟩ := chars_head h
  cases ss with
  | nil => exact ⟨c, cs, by rw [listChars, hs], hc⟩
  | cons t ss => exact ⟨c, _, by rw [listChars, hs, List.cons_append], hc⟩

/-! ## Reading shapes back -/

mutual
theorem chars_append_inj : ∀ {s t : Shape} {r u : List Char}, isWellFormed s = true →
    isWellFormed t = true → Stops (!isMark ·) r → Stops (!isMark ·) u →
      s.chars ++ r = t.chars ++ u → s = t ∧ r = u
  | elementary a, elementary b, r, u, hs, ht, hr, hu, h => by
    simp only [isWellFormed, Bool.and_eq_true] at hs ht
    obtain ⟨hab, hru⟩ := plain_append_inj hs.2 ht.2 hr hu h
    exact ⟨by rw [String.toList_inj.mp hab], hru⟩
  | elementary a, tuple suffix components, r, u, hs, _, _, _, h => by
    obtain ⟨c, cs, ha, hc⟩ := elementary_head hs
    simp only [chars, ha, List.cons_append, List.cons.injEq] at h
    obtain ⟨rfl, -⟩ := h
    cases hc
  | tuple suffix components, elementary b, r, u, _, ht, _, _, h => by
    obtain ⟨c, cs, hb, hc⟩ := elementary_head ht
    simp only [chars, hb, List.cons_append, List.cons.injEq] at h
    obtain ⟨rfl, -⟩ := h
    cases hc
  | tuple suffix components, tuple suffix' components', r, u, hs, ht, hr, hu, h => by
    simp only [isWellFormed, Bool.and_eq_true] at hs ht
    simp only [chars, List.cons_append, List.append_assoc, List.cons.injEq, true_and] at h
    obtain ⟨hc, h⟩ := listChars_append_inj hs.2 ht.2 h
    obtain ⟨hsu, hru⟩ := plain_append_inj hs.1 ht.1 hr hu h
    exact ⟨by rw [hc, String.toList_inj.mp hsu], hru⟩
/-- **A list of types up to its closing parenthesis is read in one way.** -/
theorem listChars_append_inj : ∀ {ss ts : List Shape} {r u : List Char}, areWellFormed ss = true →
    areWellFormed ts = true → listChars ss ++ ')' :: r = listChars ts ++ ')' :: u → ss = ts ∧ r = u
  | [], [], r, u, _, _, h => by
    simp only [listChars, List.nil_append, List.cons.injEq, true_and] at h
    exact ⟨rfl, h⟩
  | [], t :: ts, r, u, _, ht, h => by
    simp only [areWellFormed, Bool.and_eq_true] at ht
    obtain ⟨c, cs, hc, hne⟩ := listChars_head ht.1 ts
    rw [hc, listChars, List.nil_append, List.cons_append, List.cons.injEq] at h
    exact absurd h.1.symm hne
  | s :: ss, [], r, u, hs, _, h => by
    simp only [areWellFormed, Bool.and_eq_true] at hs
    obtain ⟨c, cs, hc, hne⟩ := listChars_head hs.1 ss
    rw [hc, listChars, List.nil_append, List.cons_append, List.cons.injEq] at h
    exact absurd h.1 hne
  | [s], [t], r, u, hs, ht, h => by
    simp only [areWellFormed, Bool.and_true] at hs ht
    simp only [listChars] at h
    obtain ⟨rfl, hru⟩ := chars_append_inj hs ht (stops_cons rfl r) (stops_cons rfl u) h
    exact ⟨rfl, (List.cons.inj hru).2⟩
  | [s], t :: t' :: ts, r, u, hs, ht, h => by
    simp only [areWellFormed, Bool.and_true] at hs
    rw [areWellFormed, Bool.and_eq_true] at ht
    simp only [listChars, List.append_assoc, List.cons_append] at h
    obtain ⟨-, hru⟩ := chars_append_inj hs ht.1 (stops_cons rfl r) (stops_cons rfl _) h
    exact absurd (List.cons.inj hru).1 (by decide)
  | s :: s' :: ss, [t], r, u, hs, ht, h => by
    rw [areWellFormed, Bool.and_eq_true] at hs
    simp only [areWellFormed, Bool.and_true] at ht
    simp only [listChars, List.append_assoc, List.cons_append] at h
    obtain ⟨-, hru⟩ := chars_append_inj hs.1 ht (stops_cons rfl _) (stops_cons rfl u) h
    exact absurd (List.cons.inj hru).1 (by decide)
  | s :: s' :: ss, t :: t' :: ts, r, u, hs, ht, h => by
    rw [areWellFormed, Bool.and_eq_true] at hs ht
    rw [listChars, listChars] at h
    simp only [List.append_assoc, List.cons_append] at h
    obtain ⟨rfl, hru⟩ := chars_append_inj hs.1 ht.1 (stops_cons rfl _) (stops_cons rfl _) h
    obtain ⟨hss, hru⟩ := listChars_append_inj hs.2 ht.2 (List.cons.inj hru).2
    exact ⟨by rw [hss], hru⟩
end

end Shape

/-! ## Signatures -/

namespace Entry

theorem toList_signature (e : Entry) :
    e.signature.toList = e.name.toList ++ '(' :: (Shape.listChars e.shapes ++ [')']) := by
  simp [signature, Shape.canonicalList]

def HasProperSignature (e : Entry) : Prop :=
  '(' ∉ e.name.toList ∧ ∀ s ∈ e.shapes, s.isWellFormed = true

instance : DecidablePred HasProperSignature := fun e =>
  inferInstanceAs (Decidable ('(' ∉ e.name.toList ∧ ∀ s ∈ e.shapes, s.isWellFormed = true))

/-- **A signature belongs to one name and one list of shapes.** -/
theorem signature_inj {e f : Entry} (he : e.HasProperSignature) (hf : f.HasProperSignature)
    (h : e.signature = f.signature) : e.name = f.name ∧ e.shapes = f.shapes := by
  have hl := congrArg String.toList h
  rw [toList_signature, toList_signature] at hl
  have hname {e : Entry} (he : e.HasProperSignature) : ∀ c ∈ e.name.toList, (c != '(') = true := by
    intro c hc
    exact bne_iff_ne.mpr fun h => he.1 (h ▸ hc)
  obtain ⟨hn, hl⟩ := append_inj_of_stops (hname he) (hname hf) (stops_cons rfl _) (stops_cons rfl _) hl
  obtain ⟨hs, -⟩ := Shape.listChars_append_inj (Shape.areWellFormed_iff.mpr he.2)
    (Shape.areWellFormed_iff.mpr hf.2) (List.cons.inj hl).2
  exact ⟨String.toList_inj.mp hn, hs⟩

end Entry

end ContractBindings.Abi
