import ContractBindings.Proofs.Json.Strings

/-!
# Single-quoted literals

A literal in single quotes is read character by character, as strict code reads
it, and denotes the code units that its characters and escapes stand for. A
text put between the quotes as it is denotes itself exactly if it has no quote,
no backslash and no line end (`denotes_iff`): each of the others stands for
itself, while an escape yields fewer units than the characters that it takes.
-/

namespace ContractBindings.Literal

open Json (unitsOf)

/-! ## Reading a literal -/

/-- How far a literal is read: in the text, after a backslash, in the digits of an escape, or after an
escape that the next character may belong to. -/
inductive State where
  | text
  | escape
  | unicode
  | digits (more value : Nat)
  | braces (value : Option Nat)
  | zero
  | lineEnd

inductive Step where
  | close
  | next (units : List Nat) (state : State)

def units (n : Nat) : List Nat :=
  if n < 0x10000 then [n] else [0xD800 + (n - 0x10000) / 0x400, 0xDC00 + (n - 0x10000) % 0x400]

def textStep (c : Char) : Option Step :=
  if c = '\'' then some .close
  else if c = '\\' then some (.next [] .escape)
  else if c = '\n' || c = '\r' then none
  else some (.next (unitsOf c) .text)

def control? : Char → Option Nat
  | 'b' => some 8
  | 't' => some 9
  | 'n' => some 10
  | 'v' => some 11
  | 'f' => some 12
  | 'r' => some 13
  | _ => none

/-- The first character of an escape. A line end goes on with the literal on the next line, and all
digits but a lone zero are refused. -/
def escapeStep (c : Char) : Option Step :=
  if c = '\n' || c = '\u2028' || c = '\u2029' then some (.next [] .text)
  else if c = '\r' then some (.next [] .lineEnd)
  else if c = 'x' then some (.next [] (.digits 1 0))
  else if c = 'u' then some (.next [] .unicode)
  else if c = '0' then some (.next [0] .zero)
  else if c.isDigit then none
  else
    match control? c with
    | some n => some (.next [n] .text)
    | none => some (.next (unitsOf c) .text)

def digitStep (more value : Nat) (c : Char) : Option Step :=
  (Text.hexValue? c).map fun d =>
    match more with
    | 0 => .next [value * 16 + d] .text
    | more + 1 => .next [] (.digits more (value * 16 + d))

def bracesStep (value : Option Nat) (c : Char) : Option Step :=
  if c = '\x7d' then
    match value with
    | none => none
    | some n => if n < 0x110000 then some (.next (units n) .text) else none
  else (Text.hexValue? c).map fun d => .next [] (.braces (some (value.getD 0 * 16 + d)))

def step : State → Char → Option Step
  | .text, c => textStep c
  | .escape, c => escapeStep c
  | .unicode, c => if c = '\x7b' then some (.next [] (.braces none)) else digitStep 3 0 c
  | .digits more value, c => digitStep more value c
  | .braces value, c => bracesStep value c
  | .zero, c => if c.isDigit then none else textStep c
  | .lineEnd, c => if c = '\n' then some (.next [] .text) else textStep c

def read : State → List Char → Option (List Nat × List Char)
  | _, [] => none
  | state, c :: cs =>
    match step state c with
    | none => none
    | some .close => some ([], cs)
    | some (.next ns state') => (read state' cs).map fun (ms, rest) => (ns ++ ms, rest)

/-- A text that starts behind the opening quote of a literal which denotes a value. -/
def Denotes (text value : String) : Prop :=
  ∃ rest, read .text text.toList = some (value.toList.flatMap unitsOf, rest)

def isPlain (c : Char) : Bool := c != '\'' && c != '\\' && c != '\n' && c != '\r'

/-! ## What a step yields -/

theorem textStep_of_isPlain {c : Char} (h : isPlain c = true) :
    textStep c = some (.next (unitsOf c) .text) := by
  simp only [isPlain, Bool.and_eq_true, bne_iff_ne] at h
  obtain ⟨⟨⟨hq, hb⟩, hn⟩, hr⟩ := h
  simp [textStep, hq, hb, hn, hr]

/-- The quote closes the literal, a backslash starts an escape, and a line end is refused. -/
theorem textStep_of_not_isPlain {c : Char} (h : ¬isPlain c = true) :
    textStep c = none ∨ textStep c = some .close ∨ c = '\\' ∧ textStep c = some (.next [] .escape) := by
  unfold textStep
  by_cases hq : c = '\''
  · exact .inr (.inl (by rw [if_pos hq]))
  by_cases hb : c = '\\'
  · exact .inr (.inr ⟨hb, by rw [if_neg hq, if_pos hb]⟩)
  · have hl : (c = '\n' || c = '\r') = true := by
      by_cases hn : c = '\n'
      · simp [hn]
      · simpa [isPlain, hq, hb, hn] using h
    exact .inl (by rw [if_neg hq, if_neg hb, if_pos hl])

theorem length_unitsOf_pos (c : Char) : 1 ≤ (unitsOf c).length := by
  unfold unitsOf
  split <;> simp

theorem length_units_le (n : Nat) : (units n).length ≤ 2 := by
  unfold units
  split <;> simp

def credit : State → Nat
  | .braces _ => 1
  | _ => 0

def IsBounded (state : State) (c : Char) (o : Option Step) : Prop :=
  ∀ ns state', o = some (.next ns state') →
    ns.length + credit state' ≤ (unitsOf c).length + credit state ∧ (state' = .escape → c = '\\')

theorem isBounded_textStep (state : State) (c : Char) : IsBounded state c (textStep c) := by
  intro ns state' h
  unfold textStep at h
  split at h
  · cases h
  split at h
  · next hb => cases h; exact ⟨Nat.zero_le _, fun _ => hb⟩
  split at h
  · cases h
  · cases h; exact ⟨Nat.le_add_right _ _, fun h => by cases h⟩

theorem isBounded_escapeStep (c : Char) : IsBounded .escape c (escapeStep c) := by
  intro ns state' h
  have hpos := length_unitsOf_pos c
  unfold escapeStep at h
  split at h
  · cases h; exact ⟨Nat.zero_le _, fun h => by cases h⟩
  split at h
  · cases h; exact ⟨Nat.zero_le _, fun h => by cases h⟩
  split at h
  · cases h; exact ⟨Nat.zero_le _, fun h => by cases h⟩
  split at h
  · cases h; exact ⟨Nat.zero_le _, fun h => by cases h⟩
  split at h
  · cases h; exact ⟨hpos, fun h => by cases h⟩
  split at h
  · cases h
  split at h
  · cases h; exact ⟨hpos, fun h => by cases h⟩
  · cases h; exact ⟨Nat.le_refl _, fun h => by cases h⟩

theorem isBounded_digitStep (state : State) (more value : Nat) (c : Char) :
    IsBounded state c (digitStep more value c) := by
  intro ns state' h
  have hpos := length_unitsOf_pos c
  obtain ⟨d, -, h⟩ := Option.map_eq_some_iff.mp h
  split at h
  · cases h; exact ⟨Nat.le_add_right_of_le hpos, fun h => by cases h⟩
  · cases h; exact ⟨Nat.zero_le _, fun h => by cases h⟩

theorem isBounded_bracesStep (value : Option Nat) (c : Char) :
    IsBounded (.braces value) c (bracesStep value c) := by
  intro ns state' h
  have hpos := length_unitsOf_pos c
  unfold bracesStep at h
  split at h
  · split at h
    · cases h
    · next n =>
      split at h
      · cases h
        exact ⟨Nat.le_trans (length_units_le n) (Nat.add_le_add_right hpos 1), fun h => by cases h⟩
      · cases h
  · obtain ⟨d, -, h⟩ := Option.map_eq_some_iff.mp h
    cases h
    exact ⟨Nat.add_le_add_right (Nat.zero_le _) 1, fun h => by cases h⟩

theorem isBounded_step (state : State) (c : Char) : IsBounded state c (step state c) := by
  have hpos := length_unitsOf_pos c
  have hnone : IsBounded state c none := fun _ _ h => by cases h
  cases state with
  | text => exact isBounded_textStep _ c
  | escape => exact isBounded_escapeStep c
  | digits more value => exact isBounded_digitStep _ more value c
  | braces value => exact isBounded_bracesStep value c
  | unicode =>
    rw [step]
    split
    · intro _ _ h
      cases h
      exact ⟨Nat.le_add_right_of_le hpos, fun h => by cases h⟩
    · exact isBounded_digitStep _ 3 0 c
  | zero =>
    rw [step]
    split
    · exact hnone
    · exact isBounded_textStep _ c
  | lineEnd =>
    rw [step]
    split
    · intro _ _ h
      cases h
      exact ⟨Nat.zero_le _, fun h => by cases h⟩
    · exact isBounded_textStep _ c

/-- Only behind a backslash a quote does not close the literal. -/
theorem step_quote {state state' : State} {ns : List Nat} (h : state ≠ .escape) :
    step state '\'' ≠ some (.next ns state') := by
  have hhex : Text.hexValue? '\'' = none := by decide
  cases state with
  | escape => exact absurd rfl h
  | text | zero | lineEnd => intro hs; cases hs
  | unicode => simp [step, digitStep, hhex]
  | digits => simp [step, digitStep, hhex]
  | braces => simp [step, bracesStep, hhex]

/-! ## What a literal denotes -/

variable {rest after : List Char}

theorem getLast?_of_cons {c d : Char} {cs : List Char} (h : (c :: cs).getLast? ≠ some d) :
    cs.getLast? ≠ some d := by
  cases cs with
  | nil => simp
  | cons e cs => rwa [List.getLast?_cons_cons] at h

/-- Reading a text up to the quote behind it yields no more units than the text has. -/
theorem length_le_of_read : ∀ {cs : List Char} {state : State} {ns : List Nat},
    cs.getLast? ≠ some '\\' → (cs = [] → state ≠ .escape) →
      read state (cs ++ '\'' :: rest) = some (ns, after) →
      ns.length ≤ (cs.flatMap unitsOf).length + credit state
  | [], state, ns, _, hstate, h => by
    rw [List.nil_append, read] at h
    split at h
    · cases h
    · cases h; exact Nat.zero_le _
    · next hs => exact absurd hs (step_quote (hstate rfl))
  | c :: cs, state, ns, hlast, _, h => by
    rw [List.cons_append, read] at h
    split at h
    · cases h
    · cases h; exact Nat.zero_le _
    · next ms state' hs =>
      obtain ⟨⟨ns', after'⟩, hread, he⟩ := Option.map_eq_some_iff.mp h
      cases he
      obtain ⟨hbound, hescape⟩ := isBounded_step state c ms state' hs
      have hstate : cs = [] → state' ≠ .escape := by
        rintro rfl he
        exact hlast (by rw [hescape he]; rfl)
      have ih := length_le_of_read (getLast?_of_cons hlast) hstate hread
      rw [List.length_append, List.flatMap_cons, List.length_append]
      omega

theorem read_of_isPlain : ∀ {cs : List Char}, (∀ c ∈ cs, isPlain c = true) →
    read .text (cs ++ '\'' :: rest) = some (cs.flatMap unitsOf, rest)
  | [], _ => rfl
  | c :: cs, h => by
    rw [List.cons_append, read, step, textStep_of_isPlain (h c List.mem_cons_self)]
    dsimp only
    rw [read_of_isPlain fun d hd => h d (List.mem_cons_of_mem c hd)]
    rfl

/-- A text that starts with a character which does not stand for itself does not denote itself. -/
theorem isPlain_of_read_cons {c : Char} {cs : List Char} (hlast : (c :: cs).getLast? ≠ some '\\')
    (h : read .text (c :: cs ++ '\'' :: rest) = some ((c :: cs).flatMap unitsOf, after)) :
    isPlain c = true := by
  refine Decidable.byContradiction fun hc => ?_
  have hpos := length_unitsOf_pos c
  rw [List.cons_append, read, step, List.flatMap_cons] at h
  rcases textStep_of_not_isPlain hc with hstep | hstep | ⟨rfl, hstep⟩ <;> rw [hstep] at h
  · cases h
  · -- the literal ends before it has yielded anything
    have hlen := congrArg (fun o => (o.getD ([], [])).1.length) h
    simp only [Option.getD_some, List.length_nil, List.length_append] at hlen
    omega
  · -- the backslash yields nothing, and what is behind it no more than it has
    obtain ⟨⟨ns, after'⟩, hread, he⟩ := Option.map_eq_some_iff.mp h
    obtain ⟨hns, -⟩ := Prod.mk.inj he
    have hne : cs ≠ [] := by
      rintro rfl
      exact hlast rfl
    have hle := length_le_of_read (getLast?_of_cons hlast) (fun h => absurd h hne) hread
    have hlen := congrArg List.length hns
    rw [List.nil_append, List.length_append] at hlen
    simp only [credit] at hle
    omega

theorem isPlain_of_read : ∀ {cs : List Char}, cs.getLast? ≠ some '\\' →
    read .text (cs ++ '\'' :: rest) = some (cs.flatMap unitsOf, after) → ∀ c ∈ cs, isPlain c = true
  | [], _, _ => by simp
  | c :: cs, hlast, h => by
    have hc := isPlain_of_read_cons hlast h
    rw [List.cons_append, read, step, textStep_of_isPlain hc, List.flatMap_cons] at h
    obtain ⟨⟨ns, after'⟩, hread, he⟩ := Option.map_eq_some_iff.mp h
    obtain ⟨hns, hafter⟩ := Prod.mk.inj he
    rw [List.append_cancel_left hns, hafter] at hread
    exact List.forall_mem_cons.mpr ⟨hc, isPlain_of_read (getLast?_of_cons hlast) hread⟩

/-- **A text between single quotes denotes itself exactly if each of its characters stands for itself**,
unless it ends in a backslash. -/
theorem denotes_iff {value : String} (hlast : value.toList.getLast? ≠ some '\\') (rest : String) :
    Denotes (value ++ "'" ++ rest) value ↔ ∀ c ∈ value.toList, isPlain c = true := by
  have htext : (value ++ "'" ++ rest).toList = value.toList ++ '\'' :: rest.toList := by simp
  rw [Denotes, htext]
  constructor
  · rintro ⟨after, h⟩
    exact isPlain_of_read hlast h
  · intro h
    exact ⟨rest.toList, read_of_isPlain h⟩

/-- Escapes of all kinds, and text that goes on in the next line. -/
example : read .text "a\\'\\n\\x41\\u0042\\u\x7b1F600\x7d\\0\\\r\nb';".toList =
    some (['a', '\'', '\n', 'A', 'B', '😀', Char.ofNat 0, 'b'].flatMap unitsOf, [';']) := by
  decide +kernel

end ContractBindings.Literal
