import ContractBindings.Proofs.Json.RoundTrip
import ContractBindings.Proofs.Text.Split

/-!
# Lines of JSON text

JSON text in an indented layout has no line ends but those of the layout, so
each line but the first starts, after its blanks, with the first character of
a value or with a closing one. No such line starts with a word of any other
kind, whatever strings the value holds.
-/

namespace ContractBindings

theorem Text.pieces_append_of_not_mem {sep : Char} {as : List Char} (h : sep ∉ as) (cs : List Char) :
    ∃ p ps, pieces sep cs = p :: ps ∧ pieces sep (as ++ cs) = (as ++ p) :: ps := by
  induction as with
  | nil =>
    cases hp : pieces sep cs with
    | nil => exact absurd hp (pieces_ne_nil sep cs)
    | cons p ps => exact ⟨p, ps, rfl, hp⟩
  | cons a as ih =>
    rw [List.mem_cons, not_or] at h
    obtain ⟨p, ps, hcs, hrest⟩ := ih h.2
    refine ⟨p, ps, hcs, ?_⟩
    rw [List.cons_append, pieces, if_neg (Ne.symm h.1), hrest]
    rfl

namespace Json

open Decimal

/-! ## The first mark of a line -/

def firstMark (line : List Char) : Option Char := (line.dropWhile (· == ' ')).head?

theorem firstMark_replicate (n : Nat) (cs : List Char) :
    firstMark (List.replicate n ' ' ++ cs) = firstMark cs := by
  unfold firstMark
  rw [List.dropWhile_append_of_pos]
  intro c hc
  rw [List.eq_of_mem_replicate hc]
  rfl

theorem firstMark_cons {c : Char} (hc : c ≠ ' ') (cs : List Char) : firstMark (c :: cs) = some c := by
  simp [firstMark, hc]

def marks : List Char := leads ++ [']', '\x7d']

theorem marks_spec : ∀ c ∈ marks, c ≠ ' ' ∧ c ≠ '\n' := by
  simp [marks, leads]

/-- Every line but the first starts with one of the marks, if it is not blank. -/
def Tidy (cs : List Char) : Prop :=
  ∀ line ∈ (Text.pieces '\n' cs).tail, ∀ c, firstMark line = some c → c ∈ marks

theorem tidy_nil : Tidy [] := by
  intro line hl
  cases hl

theorem tidy_append {as cs : List Char} (h : '\n' ∉ as) (hcs : Tidy cs) : Tidy (as ++ cs) := by
  obtain ⟨p, ps, hp, happ⟩ := Text.pieces_append_of_not_mem h cs
  unfold Tidy at hcs ⊢
  rw [hp] at hcs
  rw [happ]
  exact hcs

theorem tidy_cons {c : Char} {cs : List Char} (h : c ≠ '\n') (hcs : Tidy cs) : Tidy (c :: cs) := by
  have hc : '\n' ∉ [c] := by simpa using Ne.symm h
  exact tidy_append hc hcs

theorem tidy_lead {width depth : Nat} {c : Char} {cs : List Char} (hc : c ∈ marks)
    (hcs : Tidy (c :: cs)) : Tidy ((Layout.indented width).lead depth ++ c :: cs) := by
  obtain ⟨hblank, hend⟩ := marks_spec c hc
  have hgap : '\n' ∉ List.replicate (width * depth) ' ' ++ [c] := by
    intro hm
    rcases List.mem_append.mp hm with hm | hm
    · have := List.eq_of_mem_replicate hm
      revert this; decide
    · exact hend (List.mem_singleton.mp hm).symm
  obtain ⟨p, ps, hp, happ⟩ := Text.pieces_append_of_not_mem hgap cs
  have htext : (Layout.indented width).lead depth ++ c :: cs =
      '\n' :: (List.replicate (width * depth) ' ' ++ [c] ++ cs) := by
    simp [Layout.lead]
  have hps : ∀ line ∈ ps, ∀ d, firstMark line = some d → d ∈ marks := by
    have hc' : '\n' ∉ [c] := by simpa using Ne.symm hend
    obtain ⟨p', ps', hp', happ'⟩ := Text.pieces_append_of_not_mem hc' cs
    rw [hp] at hp'
    cases hp'
    unfold Tidy at hcs
    rw [show c :: cs = [c] ++ cs from rfl, happ'] at hcs
    exact hcs
  rw [htext, Tidy, Text.pieces_cons_sep, happ]
  intro line hl d hd
  rcases List.mem_cons.mp hl with rfl | hl
  · rw [List.append_assoc, firstMark_replicate, List.singleton_append, firstMark_cons hblank] at hd
    cases hd
    exact hc
  · exact hps line hl d hd

/-! ## Numbers -/

theorem natText_cons (n : Nat) : ∃ c cs, natText n = c :: cs ∧ c ∈ leads := by
  obtain ⟨ds, hd⟩ := exists_isDigitsOf n
  obtain ⟨d, tail, rfl, -⟩ := hd.lead
  have hlead : ∀ d < 10, d.digitChar ∈ leads := by decide
  exact ⟨_, _, hd.text, hlead d (hd.digits d List.mem_cons_self)⟩

theorem newline_not_mem_natText (n : Nat) : '\n' ∉ natText n := by
  intro h
  have hdigit := Nat.isDigit_of_mem_toDigits (by decide) (Nat.le_refl 10) h
  revert hdigit; decide

theorem newline_not_mem_exponentText (width : Nat) (e : Int) : '\n' ∉ exponentText width e := by
  have hn := newline_not_mem_natText e.natAbs
  unfold exponentText padded
  split <;> simp [hn, List.mem_replicate]

theorem write_cons (n : Notation) (s : Scientific) :
    (∃ c cs, n.write s = c :: cs ∧ c ∈ leads) ∧ '\n' ∉ n.write s := by
  obtain ⟨c, cs, htext, hc⟩ := natText_cons s.digits
  have hline := newline_not_mem_natText s.digits
  have hexp := newline_not_mem_exponentText n.exponentDigits
  rw [htext, List.mem_cons, not_or] at hline
  obtain ⟨hne, hcs⟩ := hline
  have htake : ∀ k, '\n' ∉ cs.take k := fun k hm => hcs (List.mem_of_mem_take hm)
  have hdrop : ∀ k, '\n' ∉ cs.drop k := fun k hm => hcs (List.mem_of_mem_drop hm)
  unfold Notation.write
  rw [htext]
  dsimp only
  split
  · cases cs with
    | nil => exact ⟨⟨c, _, rfl, hc⟩, by simp [hne, hexp]⟩
    | cons d cs => exact ⟨⟨c, _, rfl, hc⟩, by simp_all⟩
  · split
    · exact ⟨⟨c, _, rfl, hc⟩, by simp [hne, hcs, List.mem_replicate]⟩
    · split
      · exact ⟨⟨c, _, rfl, hc⟩, by simp [hne, htake, hdrop]⟩
      · exact ⟨⟨'0', _, rfl, by decide⟩, by simp [hne, hcs, List.mem_replicate]⟩

/-! ## Values -/

def IsScalarText (cs : List Char) : Prop := (∃ c rest, cs = c :: rest ∧ c ∈ marks) ∧ '\n' ∉ cs

theorem mem_marks_of_leads {c : Char} (h : c ∈ leads) : c ∈ marks := List.mem_append_left _ h

theorem isScalarText_signed {sign cs : List Char} (hs : sign = [] ∨ sign = ['-'])
    (h : IsScalarText cs) : IsScalarText (sign ++ cs) := by
  rcases hs with rfl | rfl
  · exact h
  · exact ⟨⟨'-', cs, rfl, by decide⟩, by simpa using h.2⟩

theorem isScalarText_double (x : Binary64) : IsScalarText (notation64.text x) := by
  obtain ⟨⟨c, cs, hw, hc⟩, hline⟩ := write_cons notation64 (shortest x)
  have hsign : (if x.isNegative then ['-'] else []) = [] ∨
      (if x.isNegative then ['-'] else []) = ['-'] := by
    cases x.isNegative <;> simp
  unfold Notation.text
  generalize (if x.isNegative then ['-'] else []) = sign at hsign ⊢
  dsimp only
  split
  · exact ⟨⟨'N', _, rfl, by decide⟩, by decide⟩
  split
  · exact isScalarText_signed hsign ⟨⟨'I', _, rfl, by decide⟩, by decide⟩
  split
  · exact isScalarText_signed hsign ⟨⟨'0', _, rfl, by decide⟩, by decide⟩
  · exact isScalarText_signed hsign ⟨⟨c, cs, hw, mem_marks_of_leads hc⟩, hline⟩

theorem isScalarText_int (n : Int) : IsScalarText (intText n) := by
  cases n with
  | ofNat n =>
    obtain ⟨c, cs, hn, hc⟩ := natText_cons n
    exact ⟨⟨c, cs, hn, mem_marks_of_leads hc⟩, newline_not_mem_natText n⟩
  | negSucc n =>
    have hn := newline_not_mem_natText (n + 1)
    exact ⟨⟨'-', _, rfl, by decide⟩, by simpa [intText] using hn⟩

theorem newline_not_mem_hexDigits (width n : Nat) : '\n' ∉ Text.hexDigits width n := by
  have hdigit : ∀ d < 16, d.digitChar ≠ '\n' := by decide
  induction width generalizing n with
  | zero => simp [Text.hexDigits]
  | succ width ih =>
    have hlast := hdigit (n % 16) (Nat.mod_lt n (by decide))
    simp [Text.hexDigits, ih, Ne.symm hlast]

theorem newline_not_mem_escape (c : Char) : '\n' ∉ escape c := by
  have hunit : ∀ n, '\n' ∉ unitEscape n := by
    intro n
    simp [unitEscape, newline_not_mem_hexDigits]
  unfold escape
  repeat' split
  all_goals first | decide | simp_all
  next h => rintro rfl; contradiction

theorem newline_not_mem_stringChars (s : String) : '\n' ∉ stringChars s := by
  simp [stringChars, newline_not_mem_escape]

theorem chars_mark (layout : Layout) (depth : Nat) (v : Json) :
    ∃ c cs, chars layout depth v = c :: cs ∧ c ∈ marks := by
  cases v with
  | null => exact ⟨_, _, rfl, by decide⟩
  | bool b => cases b <;> exact ⟨_, _, rfl, by decide⟩
  | int n => exact (isScalarText_int n).1
  | double x => exact (isScalarText_double x).1
  | str s => exact ⟨'"', _, rfl, by decide⟩
  | arr vs =>
    cases vs with
    | nil => exact ⟨_, _, rfl, by decide⟩
    | cons v vs => exact ⟨'[', _, by simp only [chars, List.cons_append]; rfl, by decide⟩
  | obj fs =>
    cases fs with
    | nil => exact ⟨_, _, rfl, by decide⟩
    | cons f fs => exact ⟨'\x7b', _, by simp only [chars, List.cons_append]; rfl, by decide⟩

theorem tidy_lead_chars {width : Nat} (depth : Nat) (v : Json) {rest : List Char}
    (h : Tidy (chars (.indented width) depth v ++ rest)) :
    Tidy ((Layout.indented width).lead depth ++ (chars (.indented width) depth v ++ rest)) := by
  obtain ⟨c, cs, hv, hc⟩ := chars_mark (.indented width) depth v
  rw [hv] at h ⊢
  exact tidy_lead hc h

theorem tidy_lead_stringChars {width : Nat} (depth : Nat) (s : String) {rest : List Char}
    (h : Tidy rest) : Tidy ((Layout.indented width).lead depth ++ (stringChars s ++ rest)) :=
  tidy_lead (by decide) (tidy_append (newline_not_mem_stringChars s) h)

theorem tidy_colon {rest : List Char} (h : Tidy rest) : Tidy (':' :: ' ' :: rest) :=
  tidy_cons (by decide) (tidy_cons (by decide) h)

theorem tidy_close (width depth : Nat) {c : Char} (hc : c ∈ marks) {rest : List Char} (h : Tidy rest) :
    Tidy ((Layout.indented width).lead depth ++ c :: rest) :=
  tidy_lead hc (tidy_cons (marks_spec c hc).2 h)

mutual
theorem tidy_chars (width : Nat) : ∀ (v : Json) (depth : Nat) {rest : List Char},
    Tidy rest → Tidy (chars (.indented width) depth v ++ rest)
  | .null, _, _, h => tidy_append (by simp [chars]) h
  | .bool true, _, _, h => tidy_append (by simp [chars]) h
  | .bool false, _, _, h => tidy_append (by simp [chars]) h
  | .int n, _, _, h => tidy_append (isScalarText_int n).2 h
  | .double x, _, _, h => tidy_append (isScalarText_double x).2 h
  | .str s, _, _, h => tidy_append (newline_not_mem_stringChars s) h
  | .arr [], _, _, h => tidy_append (by simp [chars]) h
  | .arr (v :: vs), depth, rest, h => by
    simp only [chars, List.append_assoc, List.cons_append, List.nil_append]
    have hclose := tidy_close width depth (by decide : ']' ∈ marks) h
    have hitems := tidy_itemChars width vs (depth + 1) hclose
    have hfirst := tidy_chars width v (depth + 1) hitems
    exact tidy_cons (by decide) (tidy_lead_chars (depth + 1) v hfirst)
  | .obj [], _, _, h => tidy_append (by simp [chars]) h
  | .obj ((k, v) :: fs), depth, rest, h => by
    simp only [chars, List.append_assoc, List.cons_append, List.nil_append]
    have hclose := tidy_close width depth (by decide : '\x7d' ∈ marks) h
    have hfields := tidy_fieldChars width fs (depth + 1) hclose
    have hfirst := tidy_chars width v (depth + 1) hfields
    exact tidy_cons (by decide) (tidy_lead_stringChars (depth + 1) k (tidy_colon hfirst))
theorem tidy_itemChars (width : Nat) : ∀ (vs : List Json) (depth : Nat) {rest : List Char},
    Tidy rest → Tidy (itemChars (.indented width) depth vs ++ rest)
  | [], _, _, h => h
  | v :: vs, depth, rest, h => by
    simp only [itemChars, Layout.separator, List.append_assoc, List.cons_append]
    have hvs := tidy_itemChars width vs depth h
    have hv := tidy_chars width v depth hvs
    exact tidy_cons (by decide) (tidy_lead_chars depth v hv)
theorem tidy_fieldChars (width : Nat) : ∀ (fs : List (String × Json)) (depth : Nat) {rest : List Char},
    Tidy rest → Tidy (fieldChars (.indented width) depth fs ++ rest)
  | [], _, _, h => h
  | (k, v) :: fs, depth, rest, h => by
    simp only [fieldChars, Layout.separator, List.append_assoc, List.cons_append]
    have hfs := tidy_fieldChars width fs depth h
    have hv := tidy_chars width v depth hfs
    exact tidy_cons (by decide) (tidy_lead_stringChars depth k (tidy_colon hv))
end

/-- **Lines of JSON text start with JSON**, but for the first one, which goes on with what stands in
front of the text. -/
theorem tidy_pretty (v : Json) {before rest : List Char} (hb : '\n' ∉ before) (hr : Tidy rest) :
    Tidy (before ++ (v.pretty.toList ++ rest)) := by
  have hv := tidy_chars 2 v 0 hr
  rw [pretty, String.toList_ofList]
  exact tidy_append hb hv

end Json

end ContractBindings
