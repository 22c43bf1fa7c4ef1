import ContractBindings.Binding.Client
import ContractBindings.Proofs.Text.Split

/-!
# Lines

A text that was put together from lines has these lines, so what a line holds
between two fixed texts can be looked for line by line.
-/

namespace ContractBindings.Text

def lines (text : String) : List (List Char) := pieces '\n' text.toList

def IsOneLine (s : String) : Prop := '\n' ∉ s.toList

instance : DecidablePred IsOneLine := fun s => inferInstanceAs (Decidable ('\n' ∉ s.toList))

theorem isOneLine_append {s t : String} : IsOneLine (s ++ t) ↔ IsOneLine s ∧ IsOneLine t := by
  simp [IsOneLine]

theorem IsOneLine.intercalate {sep : String} (hsep : IsOneLine sep) :
    ∀ {ss : List String}, (∀ s ∈ ss, IsOneLine s) → IsOneLine (sep.intercalate ss)
  | [], _ => by simp [IsOneLine]
  | [s], h => by
    rw [String.intercalate_singleton]
    exact h s List.mem_cons_self
  | s :: t :: ss, h => by
    have ih := intercalate hsep fun u hu => h u (List.mem_cons_of_mem s hu)
    have hs := h s List.mem_cons_self
    rw [String.intercalate_cons_cons, isOneLine_append, isOneLine_append]
    exact ⟨⟨hs, hsep⟩, ih⟩

theorem lines_of_isOneLine {s : String} (h : IsOneLine s) : lines s = [s.toList] := pieces_of_not_mem h

theorem lines_linesText (ls : List String) : lines (linesText ls) = ls.flatMap lines ++ [[]] := by
  induction ls with
  | nil => rfl
  | cons l ls ih =>
    have hcons : (linesText (l :: ls)).toList = l.toList ++ '\n' :: (linesText ls).toList := by
      simp [linesText, String.join_cons]
    rw [lines, hcons, pieces_append_sep]
    rw [lines] at ih
    rw [ih, List.flatMap_cons, List.append_assoc, lines]

theorem lines_linesText_of_isOneLine {ls : List String} (h : ∀ l ∈ ls, IsOneLine l) :
    ls.flatMap lines = ls.map String.toList := by
  induction ls with
  | nil => rfl
  | cons l ls ih =>
    have hl := lines_of_isOneLine (h l List.mem_cons_self)
    have hls := ih fun m hm => h m (List.mem_cons_of_mem l hm)
    simp [hl, hls]

/-! ## How a line starts -/

def StartsWithNone (leads : List String) (line : List Char) : Prop :=
  ∀ lead ∈ leads, dropLead? lead.toList line = none

instance (leads : List String) : DecidablePred (StartsWithNone leads) := fun line =>
  inferInstanceAs (Decidable (∀ lead ∈ leads, dropLead? lead.toList line = none))

theorem startsWithNone_append {leads : List String} (s rest : String)
    (h : ∀ lead ∈ leads, ¬lead.toList <+: s.toList ∧ ¬s.toList <+: lead.toList) :
    StartsWithNone leads (s ++ rest).toList := by
  intro lead hl
  obtain ⟨hlead, hs⟩ := h lead hl
  rw [String.toList_append, dropLead?_eq_none hlead hs]

/-! ## What a line holds -/

def between? (before after : String) (line : List Char) : Option (List Char) := do
  let rest ← dropLead? before.toList line
  (dropLead? after.toList.reverse rest.reverse).map List.reverse

theorem between?_eq_some_iff {before after : String} {line inner : List Char} :
    between? before after line = some inner ↔ line = before.toList ++ (inner ++ after.toList) := by
  unfold between?
  constructor
  · intro h
    obtain ⟨rest, hrest, h⟩ := Option.bind_eq_some_iff.mp h
    obtain ⟨back, hback, rfl⟩ := Option.map_eq_some_iff.mp h
    have hrev := congrArg List.reverse (dropLead?_eq_some_iff.mp hback)
    rw [dropLead?_eq_some_iff.mp hrest]
    simpa using hrev
  · rintro rfl
    have hlead : dropLead? before.toList (before.toList ++ (inner ++ after.toList)) =
        some (inner ++ after.toList) := dropLead?_eq_some_iff.mpr rfl
    have htail : dropLead? after.toList.reverse (inner ++ after.toList).reverse = some inner.reverse := by
      rw [dropLead?_eq_some_iff, List.reverse_append]
    refine Option.bind_eq_some_iff.mpr ⟨_, hlead, ?_⟩
    rw [htail]
    simp

theorem between?_eq_none {before after : String} {line : List Char}
    (h : dropLead? before.toList line = none) : between? before after line = none := by
  simp only [between?, h, Option.bind_eq_bind, Option.bind_none]

def named? (before after : String) (line : List Char) : Option (List Char × List Char) := do
  cutFirst? '(' (← between? before after line)

theorem named?_eq_some_iff {before after : String} {line name args : List Char} :
    named? before after line = some (name, args) ↔
      line = before.toList ++ (name ++ '(' :: args ++ after.toList) ∧ '(' ∉ name := by
  unfold named?
  constructor
  · intro h
    obtain ⟨inner, hinner, hcut⟩ := Option.bind_eq_some_iff.mp h
    obtain ⟨rfl, hn⟩ := cutFirst?_eq_some_iff.mp hcut
    exact ⟨between?_eq_some_iff.mp hinner, hn⟩
  · rintro ⟨hline, hn⟩
    have hinner := between?_eq_some_iff.mpr hline
    rw [hinner]
    exact cutFirst?_eq_some_iff.mpr ⟨rfl, hn⟩

end ContractBindings.Text
