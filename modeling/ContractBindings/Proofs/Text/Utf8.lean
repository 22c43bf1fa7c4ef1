import ContractBindings.Text.Utf8

/-!
# Text in UTF-8

The decoder takes exactly the bytes that encode a text, and gives its
characters (`decode_eq_ok`). The bytes of one character have the forms of its
length, and each form has its own ranges of bytes, so the encoder and the
decoder are compared form by form.
-/

namespace ContractBindings.Text.Utf8

open String (utf8EncodeChar)

/-! ## Bytes as numbers -/

theorem isTail_iff {b : UInt8} : isTail b = true ↔ 128 ≤ b.toNat ∧ b.toNat < 192 := by
  simp [isTail, UInt8.le_iff_toNat_le, UInt8.lt_iff_toNat_lt]

theorem isSecond_iff {a b : UInt8} : isSecond a b = true ↔ (128 ≤ b.toNat ∧ b.toNat < 192) ∧
    (a.toNat = 224 → 160 ≤ b.toNat) ∧ (a.toNat = 237 → b.toNat < 160) ∧
      (a.toNat = 240 → 144 ≤ b.toNat) ∧ (a.toNat = 244 → b.toNat < 144) := by
  simp only [isSecond, Bool.and_eq_true, isTail_iff, ← UInt8.toNat_inj, UInt8.reduceToNat]
  split
  · simp [UInt8.le_iff_toNat_le]; omega
  split
  · simp [UInt8.lt_iff_toNat_lt]; omega
  split
  · simp [UInt8.le_iff_toNat_le]; omega
  split
  · simp [UInt8.lt_iff_toNat_lt]; omega
  · simp; omega

theorem toNat_ofNat {n : Nat} (h : n.isValidChar) : (Char.ofNat n).val.toNat = n := by
  rw [Char.ofNat, dif_pos h]
  rfl

/-! ## Forms -/

inductive Form : Char → List UInt8 → Prop
  | one {a : UInt8} (ha : a.toNat < 128) : Form (Char.ofNat a.toNat) [a]
  | two {a b : UInt8} (ha : 194 ≤ a.toNat) (ha' : a.toNat < 224) (hb : isSecond a b = true) :
    Form (Char.ofNat (a.toNat % 32 * 64 + tailBits b)) [a, b]
  | three {a b c : UInt8} (ha : 224 ≤ a.toNat) (ha' : a.toNat < 240) (hb : isSecond a b = true)
      (hc : isTail c = true) :
    Form (Char.ofNat ((a.toNat % 16 * 64 + tailBits b) * 64 + tailBits c)) [a, b, c]
  | four {a b c d : UInt8} (ha : 240 ≤ a.toNat) (ha' : a.toNat < 245) (hb : isSecond a b = true)
      (hc : isTail c = true) (hd : isTail d = true) :
    Form (Char.ofNat (((a.toNat % 8 * 64 + tailBits b) * 64 + tailBits c) * 64 + tailBits d))
      [a, b, c, d]

theorem byte_eq {n : Nat} {a : UInt8} (h : n = a.toNat) : UInt8.ofNat n = a := by
  rw [h, UInt8.ofNat_toNat]

variable {c : Char} {bytes rest : List UInt8}

theorem Form.encodeChar (h : Form c bytes) : utf8EncodeChar c = bytes := by
  cases h with
  | @one a ha =>
    have hn := toNat_ofNat (n := a.toNat) (.inl (by omega))
    unfold utf8EncodeChar
    rw [hn, if_pos (by omega), UInt8.ofNat_toNat]
  | @two a b ha ha' hb =>
    obtain ⟨⟨hb, hb'⟩, -⟩ := isSecond_iff.mp hb
    have hn := toNat_ofNat (n := a.toNat % 32 * 64 + tailBits b) (.inl (by unfold tailBits; omega))
    unfold utf8EncodeChar
    unfold tailBits at *
    rw [hn, if_neg (by omega), if_pos (by omega), byte_eq (a := a) (by omega),
      byte_eq (a := b) (by omega)]
  | @three a b c ha ha' hb hc =>
    obtain ⟨⟨hb, hb'⟩, hlow, hhigh, -⟩ := isSecond_iff.mp hb
    obtain ⟨hc, hc'⟩ := isTail_iff.mp hc
    have hn := toNat_ofNat (n := (a.toNat % 16 * 64 + tailBits b) * 64 + tailBits c)
      (by unfold tailBits Nat.isValidChar; omega)
    unfold utf8EncodeChar
    unfold tailBits at *
    rw [hn, if_neg (by omega), if_neg (by omega), if_pos (by omega), byte_eq (a := a) (by omega),
      byte_eq (a := b) (by omega), byte_eq (a := c) (by omega)]
  | @four a b c d ha ha' hb hc hd =>
    obtain ⟨⟨hb, hb'⟩, -, -, hlow, hhigh⟩ := isSecond_iff.mp hb
    obtain ⟨hc, hc'⟩ := isTail_iff.mp hc
    obtain ⟨hd, hd'⟩ := isTail_iff.mp hd
    have hn := toNat_ofNat (n := ((a.toNat % 8 * 64 + tailBits b) * 64 + tailBits c) * 64 + tailBits d)
      (by unfold tailBits Nat.isValidChar; omega)
    unfold utf8EncodeChar
    unfold tailBits at *
    rw [hn, if_neg (by omega), if_neg (by omega), if_neg (by omega), byte_eq (a := a) (by omega),
      byte_eq (a := b) (by omega), byte_eq (a := c) (by omega), byte_eq (a := d) (by omega)]

theorem exists_byte {n : Nat} (h : n < 256) : ∃ a : UInt8, a.toNat = n :=
  ⟨UInt8.ofNat n, by simp [Nat.mod_eq_of_lt h]⟩

/-- Every character has a form. -/
theorem exists_form (c : Char) : ∃ bytes, Form c bytes := by
  have hc : Char.ofNat c.toNat = c := Char.ofNat_toNat c
  have hvalid : c.toNat < 0xD800 ∨ 0xDFFF < c.toNat ∧ c.toNat < 0x110000 := c.valid
  generalize c.toNat = n at hc hvalid
  subst hc
  by_cases h1 : n < 0x80
  · obtain ⟨a, rfl⟩ := exists_byte (n := n) (by omega)
    exact ⟨_, .one h1⟩
  by_cases h2 : n < 0x800
  · obtain ⟨a, ha⟩ := exists_byte (n := n / 64 + 192) (by omega)
    obtain ⟨b, hb⟩ := exists_byte (n := n % 64 + 128) (by omega)
    have hn : n = a.toNat % 32 * 64 + tailBits b := by unfold tailBits; omega
    rw [hn]
    exact ⟨_, .two (by omega) (by omega) (isSecond_iff.mpr (by omega))⟩
  by_cases h3 : n < 0x10000
  · obtain ⟨a, ha⟩ := exists_byte (n := n / 4096 + 224) (by omega)
    obtain ⟨b, hb⟩ := exists_byte (n := n / 64 % 64 + 128) (by omega)
    obtain ⟨c, hc⟩ := exists_byte (n := n % 64 + 128) (by omega)
    have hn : n = (a.toNat % 16 * 64 + tailBits b) * 64 + tailBits c := by unfold tailBits; omega
    rw [hn]
    exact ⟨_, .three (by omega) (by omega) (isSecond_iff.mpr (by omega))
      (isTail_iff.mpr (by omega))⟩
  · obtain ⟨a, ha⟩ := exists_byte (n := n / 262144 + 240) (by omega)
    obtain ⟨b, hb⟩ := exists_byte (n := n / 4096 % 64 + 128) (by omega)
    obtain ⟨c, hc⟩ := exists_byte (n := n / 64 % 64 + 128) (by omega)
    obtain ⟨d, hd⟩ := exists_byte (n := n % 64 + 128) (by omega)
    have hn : n = ((a.toNat % 8 * 64 + tailBits b) * 64 + tailBits c) * 64 + tailBits d := by
      unfold tailBits; omega
    rw [hn]
    exact ⟨_, .four (by omega) (by omega) (isSecond_iff.mpr (by omega))
      (isTail_iff.mpr (by omega)) (isTail_iff.mpr (by omega))⟩

theorem form_encodeChar (c : Char) : Form c (utf8EncodeChar c) := by
  obtain ⟨bytes, h⟩ := exists_form c
  rwa [h.encodeChar]

/-! ## The decoder -/

theorem isLead_spec {a : UInt8} (ha : 194 ≤ a.toNat) (ha' : a.toNat < 245) :
    ¬a < 0x80 ∧ (a < 0xC2 || 0xF5 ≤ a) = false := by
  simp [UInt8.lt_iff_toNat_lt, UInt8.le_iff_toNat_le]
  omega

/-- The decoder takes the bytes of a character in any of the forms. -/
theorem Form.decode (h : Form c bytes) (pos : Nat) : ∃ pos',
    decodeFrom pos (bytes ++ rest) = (c :: ·) <$> decodeFrom pos' rest := by
  have hlt : ∀ {a n : UInt8}, n.toNat ≤ a.toNat → ¬a < n := fun h h' =>
    absurd (UInt8.lt_iff_toNat_lt.mp h') (Nat.not_lt.mpr h)
  cases h with
  | @one a ha =>
    have h0 : a < 0x80 := UInt8.lt_iff_toNat_lt.mpr ha
    refine ⟨pos + 1, ?_⟩
    rw [decodeFrom.eq_def]
    simp [h0]
  | @two a b ha ha' hb =>
    obtain ⟨h0, hlead⟩ := isLead_spec ha (by omega)
    have hlast : a < 0xE0 := UInt8.lt_iff_toNat_lt.mpr ha'
    refine ⟨pos + 2, ?_⟩
    rw [decodeFrom.eq_def]
    simp [h0, hlead, hb, hlast]
  | @three a b c ha ha' hb hc =>
    obtain ⟨h0, hlead⟩ := isLead_spec (a := a) (by omega) (by omega)
    have hmore : ¬a < 0xE0 := hlt ha
    have hlast : a < 0xF0 := UInt8.lt_iff_toNat_lt.mpr ha'
    refine ⟨pos + 3, ?_⟩
    rw [decodeFrom.eq_def]
    simp [h0, hlead, hb, hmore, hc, hlast]
  | @four a b c d ha ha' hb hc hd =>
    obtain ⟨h0, hlead⟩ := isLead_spec (a := a) (by omega) (by omega)
    have hmore : ¬a < 0xE0 := hlt (Nat.le_trans (by decide) ha)
    have hlast : ¬a < 0xF0 := hlt ha
    refine ⟨pos + 4, ?_⟩
    rw [decodeFrom.eq_def]
    simp [h0, hlead, hb, hmore, hc, hlast, hd]

theorem except_map_eq_ok {ε α β : Type} {f : α → β} {x : Except ε α} {b : β} :
    f <$> x = .ok b ↔ ∃ a, x = .ok a ∧ f a = b := by
  cases x <;> simp [Functor.map, Except.map]

/-- The decoder starts with the bytes of a character, or there are none. -/
theorem decodeFrom_cases {pos : Nat} {cs : List Char} (h : decodeFrom pos bytes = .ok cs) :
    (bytes = [] ∧ cs = []) ∨ ∃ c front rest pos' cs', Form c front ∧ bytes = front ++ rest ∧
      decodeFrom pos' rest = .ok cs' ∧ cs = c :: cs' := by
  match bytes with
  | [] =>
    cases h
    exact .inl ⟨rfl, rfl⟩
  | a :: rest =>
    right
    rw [decodeFrom.eq_def] at h
    dsimp only at h
    split at h
    · next h0 =>
      obtain ⟨cs', hrest, rfl⟩ := except_map_eq_ok.mp h
      exact ⟨_, [a], rest, _, cs', .one (UInt8.lt_iff_toNat_lt.mp h0), rfl, hrest, rfl⟩
    split at h
    · cases h
    next hlead =>
    obtain ⟨hlow, hhigh⟩ : 194 ≤ a.toNat ∧ a.toNat < 245 := by
      simpa [UInt8.lt_iff_toNat_lt, UInt8.le_iff_toNat_le] using hlead
    split at h
    · cases h
    next b rest =>
    split at h
    · cases h
    next hb =>
    rw [Bool.not_eq_true', Bool.not_eq_false] at hb
    split at h
    · next hlast =>
      obtain ⟨cs', hrest, rfl⟩ := except_map_eq_ok.mp h
      exact ⟨_, [a, b], rest, _, cs', .two hlow (UInt8.lt_iff_toNat_lt.mp hlast) hb, rfl, hrest, rfl⟩
    next hmore =>
    have hmore := Nat.not_lt.mp fun h => hmore (UInt8.lt_iff_toNat_lt.mpr h)
    split at h
    · cases h
    next c rest =>
    split at h
    · cases h
    next hc =>
    rw [Bool.not_eq_true', Bool.not_eq_false] at hc
    split at h
    · next hlast =>
      obtain ⟨cs', hrest, rfl⟩ := except_map_eq_ok.mp h
      exact ⟨_, [a, b, c], rest, _, cs', .three hmore (UInt8.lt_iff_toNat_lt.mp hlast) hb hc, rfl,
        hrest, rfl⟩
    next hmore' =>
    have hmore' := Nat.not_lt.mp fun h => hmore' (UInt8.lt_iff_toNat_lt.mpr h)
    split at h
    · cases h
    next d rest =>
    split at h
    · cases h
    next hd =>
    rw [Bool.not_eq_true', Bool.not_eq_false] at hd
    obtain ⟨cs', hrest, rfl⟩ := except_map_eq_ok.mp h
    exact ⟨_, [a, b, c, d], rest, _, cs', .four hmore' hhigh hb hc hd, rfl, hrest, rfl⟩

/-! ## Whole texts -/

theorem decodeFrom_flatMap (pos : Nat) (cs : List Char) :
    decodeFrom pos (cs.flatMap utf8EncodeChar) = .ok cs := by
  induction cs generalizing pos with
  | nil => rfl
  | cons c cs ih =>
    obtain ⟨pos', h⟩ : ∃ pos', decodeFrom pos (utf8EncodeChar c ++ cs.flatMap utf8EncodeChar) =
        (c :: ·) <$> decodeFrom pos' (cs.flatMap utf8EncodeChar) := (form_encodeChar c).decode pos
    rw [List.flatMap_cons, h, ih pos']
    rfl

theorem eq_flatMap_of_decodeFrom : ∀ {cs : List Char} {bytes : List UInt8} {pos : Nat},
    decodeFrom pos bytes = .ok cs → bytes = cs.flatMap utf8EncodeChar
  | cs, bytes, pos, h => by
    rcases decodeFrom_cases h with ⟨rfl, rfl⟩ | ⟨c, front, rest, pos', cs', hform, rfl, hrest, rfl⟩
    · rfl
    · rw [List.flatMap_cons, hform.encodeChar, ← eq_flatMap_of_decodeFrom hrest]

theorem encode_ofList (cs : List Char) : encode (String.ofList cs) = cs.flatMap utf8EncodeChar := by
  simp [encode, List.utf8Encode]

/-- **The decoder takes the bytes that encode a text, and no others.** -/
theorem decode_eq_ok {cs : List Char} : decode bytes = .ok cs ↔ bytes = encode (String.ofList cs) := by
  rw [encode_ofList]
  constructor
  · exact eq_flatMap_of_decodeFrom
  · rintro rfl
    exact decodeFrom_flatMap 0 cs

end ContractBindings.Text.Utf8
