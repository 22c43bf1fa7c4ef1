import ContractBindings.Text.Split

/-!
# Cut text put together

Cutting a text at a separator is the library's splitting of a list, so pieces
that were put together with the separator are had again by cutting.
-/

namespace ContractBindings.Text

theorem pieces_eq_splitOn (sep : Char) : ∀ cs : List Char, pieces sep cs = cs.splitOn sep
  | [] => List.splitOn_nil sep |>.symm
  | c :: cs => by
    rw [List.splitOn_cons_eq_if_modifyHead, pieces, pieces_eq_splitOn sep cs]
    by_cases h : c = sep
    · rw [if_pos h, if_pos (beq_iff_eq.mpr h)]
    · rw [if_neg h, if_neg fun he => h (beq_iff_eq.mp he)]
      cases hp : cs.splitOn sep with
      | nil => exact absurd hp (List.splitOn_ne_nil sep cs)
      | cons p ps => rfl

theorem pieces_of_not_mem {sep : Char} {cs : List Char} (h : sep ∉ cs) : pieces sep cs = [cs] := by
  rw [pieces_eq_splitOn, List.splitOn_eq_singleton h]

theorem pieces_intercalate {sep : Char} {ps : List (List Char)} (h : ∀ p ∈ ps, sep ∉ p)
    (hne : ps ≠ []) : pieces sep ([sep].intercalate ps) = ps := by
  rw [pieces_eq_splitOn, List.splitOn_intercalate sep h hne]

theorem pieces_cons_sep (sep : Char) (cs : List Char) :
    pieces sep (sep :: cs) = [] :: pieces sep cs := by
  rw [pieces, if_pos rfl]

theorem pieces_append_sep (sep : Char) (as bs : List Char) :
    pieces sep (as ++ sep :: bs) = pieces sep as ++ pieces sep bs := by
  rw [pieces_eq_splitOn, pieces_eq_splitOn, pieces_eq_splitOn, List.splitOn_append_cons_self]

theorem dropLead?_eq_some_iff : ∀ {as cs rest : List Char},
    dropLead? as cs = some rest ↔ cs = as ++ rest
  | [], cs, rest => by simp [dropLead?]
  | a :: as, [], rest => by simp [dropLead?]
  | a :: as, c :: cs, rest => by
    rw [dropLead?]
    by_cases h : a = c
    · subst h
      simp [dropLead?_eq_some_iff]
    · simp [h, Ne.symm h]

theorem isSome_dropLead?_iff {as cs : List Char} : (dropLead? as cs).isSome = true ↔ as <+: cs := by
  rw [Option.isSome_iff_exists]
  constructor
  · rintro ⟨rest, h⟩
    exact ⟨rest, (dropLead?_eq_some_iff.mp h).symm⟩
  · rintro ⟨rest, h⟩
    exact ⟨rest, dropLead?_eq_some_iff.mpr h.symm⟩

/-- A text that differs from another one within its length does not start with it. -/
theorem dropLead?_eq_none {as bs : List Char} (h : ¬as <+: bs) (h' : ¬bs <+: as) (cs : List Char) :
    dropLead? as (bs ++ cs) = none := by
  cases hd : dropLead? as (bs ++ cs) with
  | none => rfl
  | some rest =>
    have hpre : bs <+: as ++ rest := ⟨cs, dropLead?_eq_some_iff.mp hd⟩
    rcases List.prefix_or_prefix_of_prefix (List.prefix_append as rest) hpre with ha | hb
    · exact absurd ha h
    · exact absurd hb h'

/-- The first cut is where the text before it has no separator. -/
theorem cutFirst?_eq_some_iff {sep : Char} : ∀ {cs a b : List Char},
    cutFirst? sep cs = some (a, b) ↔ cs = a ++ sep :: b ∧ sep ∉ a
  | [], a, b => by simp [cutFirst?]
  | c :: cs, a, b => by
    rw [cutFirst?]
    by_cases hc : c = sep
    · subst hc
      cases a with
      | nil => simp
      | cons x a => simp_all
    · rw [if_neg hc]
      cases a with
      | nil => simp [hc]
      | cons x a =>
        constructor
        · intro h
          obtain ⟨⟨a', b'⟩, hcut, he⟩ := Option.map_eq_some_iff.mp h
          cases he
          obtain ⟨rfl, ha⟩ := cutFirst?_eq_some_iff.mp hcut
          exact ⟨rfl, List.not_mem_cons_of_ne_of_not_mem (Ne.symm hc) ha⟩
        · rintro ⟨he, ha⟩
          cases he
          have hcut : cutFirst? sep (a ++ sep :: b) = some (a, b) :=
            cutFirst?_eq_some_iff.mpr ⟨rfl, fun hm => ha (List.mem_cons_of_mem c hm)⟩
          exact Option.map_eq_some_iff.mpr ⟨_, hcut, rfl⟩

theorem cutFirst?_append {sep : Char} {a : List Char} (h : sep ∉ a) (b : List Char) :
    cutFirst? sep (a ++ sep :: b) = some (a, b) :=
  cutFirst?_eq_some_iff.mpr ⟨rfl, h⟩

/-- The last cut is where the text after it has no separator. -/
theorem cutLast?_eq_some {sep : Char} : ∀ {cs a b : List Char}, cutLast? sep cs = some (a, b) →
    cs = a ++ sep :: b ∧ sep ∉ b
  | c :: cs, a, b, h => by
    rw [cutLast?] at h
    split at h
    · next a' b' hc =>
      obtain ⟨rfl, hb⟩ := cutLast?_eq_some hc
      cases h
      exact ⟨rfl, hb⟩
    · next hc =>
      split at h
      · next hs =>
        subst hs; cases h
        exact ⟨rfl, not_mem_of_cutLast? hc⟩
      · cases h
where
  not_mem_of_cutLast? {sep : Char} : ∀ {cs : List Char}, cutLast? sep cs = none → sep ∉ cs
    | [], _ => List.not_mem_nil
    | c :: cs, h => by
      rw [cutLast?] at h
      split at h
      · cases h
      · next hc =>
        split at h
        · cases h
        · next hs => exact List.not_mem_cons_of_ne_of_not_mem (Ne.symm hs) (not_mem_of_cutLast? hc)

theorem cutLast?_of_not_mem {sep : Char} : ∀ {cs : List Char}, sep ∉ cs → cutLast? sep cs = none
  | [], _ => rfl
  | c :: cs, h => by
    rw [List.mem_cons, not_or] at h
    rw [cutLast?, cutLast?_of_not_mem h.2]
    exact if_neg (Ne.symm h.1)

theorem cutLast?_append {sep : Char} {b : List Char} (h : sep ∉ b) :
    ∀ a : List Char, cutLast? sep (a ++ sep :: b) = some (a, b)
  | [] => by
    rw [List.nil_append, cutLast?, cutLast?_of_not_mem h]
    exact if_pos rfl
  | c :: a => by rw [List.cons_append, cutLast?, cutLast?_append h a]

end ContractBindings.Text
