import ContractBindings.Proofs.Text.Split
import ContractBindings.Settings.Environment
import Mathlib.Data.List.DropRight

/-!
# Lists in variables

A variable holds a list as items with commas between them. Its items are in a
normal form, without commas and without blanks at their ends (`IsItem`), and
items in this form are what they are read from. So joined lists are read as the
items of both, and to write the items and read them again changes nothing.
-/

namespace ContractBindings

/-! ## Trimmed text -/

namespace Text

structure IsTrimmed (p : Char → Bool) (cs : List Char) : Prop where
  first : ∀ c rest, cs = c :: rest → p c = false
  last : ∀ front c, cs = front ++ [c] → p c = false

variable {p : Char → Bool} {cs : List Char}

theorem dropEndWhile_eq (p : Char → Bool) (cs : List Char) : dropEndWhile p cs = cs.rdropWhile p := rfl

theorem mem_of_mem_stripWhile {c : Char} (h : c ∈ stripWhile p cs) : c ∈ cs := by
  rw [stripWhile, dropEndWhile_eq] at h
  exact (List.dropWhile_suffix p).subset ((List.rdropWhile_prefix p _).subset h)

theorem isTrimmed_stripWhile (p : Char → Bool) (cs : List Char) : IsTrimmed p (stripWhile p cs) := by
  rw [stripWhile, dropEndWhile_eq]
  constructor
  · intro c rest hc
    -- the start was trimmed first, and trimming the end takes nothing away there
    obtain ⟨more, hmore⟩ := List.rdropWhile_prefix p (cs.dropWhile p)
    rw [hc, List.cons_append] at hmore
    have hfirst := List.head?_dropWhile_not p cs
    rwa [← hmore] at hfirst
  · intro front c hc
    have hne : (cs.dropWhile p).rdropWhile p ≠ [] := by simp [hc]
    have hlast := List.rdropWhile_last_not p _ hne
    simp only [hc, List.getLast_concat] at hlast
    exact Bool.eq_false_iff.mpr hlast

theorem IsTrimmed.stripWhile_eq (h : IsTrimmed p cs) : stripWhile p cs = cs := by
  have hfirst : cs.dropWhile p = cs := by
    cases cs with
    | nil => rfl
    | cons c rest => rw [List.dropWhile_cons, h.first c rest rfl, if_neg Bool.false_ne_true]
  rw [stripWhile, hfirst, dropEndWhile_eq, List.rdropWhile_eq_self_iff]
  intro hne
  rw [h.last cs.dropLast _ (List.dropLast_append_getLast hne).symm]
  exact Bool.false_ne_true

end Text

namespace Environment

/-! ## Items -/

/-- An item in its normal form: it is not empty, holds no comma, and has no blank at either end. -/
structure IsItem (x : String) : Prop where
  nonempty : x ≠ ""
  plain : ',' ∉ x.toList
  trimmed : Text.IsTrimmed Text.isBlank x.toList

def trimmedPiece (piece : List Char) : String := String.ofList (Text.stripWhile Text.isBlank piece)

theorem items_eq (v : String) :
    items v = ((Text.pieces ',' v.toList).map trimmedPiece).filter (· != "") := rfl

theorem trimmedPiece_of_isItem {x : String} (h : IsItem x) : trimmedPiece x.toList = x := by
  rw [trimmedPiece, h.trimmed.stripWhile_eq, String.ofList_toList]

theorem isItem_of_mem_items {v x : String} (h : x ∈ items v) : IsItem x := by
  rw [items_eq] at h
  obtain ⟨hm, hne⟩ := List.mem_filter.mp h
  obtain ⟨piece, hpiece, rfl⟩ := List.mem_map.mp hm
  refine ⟨bne_iff_ne.mp hne, fun hcomma => ?_, ?_⟩
  · rw [trimmedPiece, String.toList_ofList] at hcomma
    exact Text.not_mem_of_mem_pieces hpiece (Text.mem_of_mem_stripWhile hcomma)
  · rw [trimmedPiece, String.toList_ofList]
    exact Text.isTrimmed_stripWhile _ _

/-- Items in their normal form are read as they were written. -/
theorem items_intercalate {xs : List String} (h : ∀ x ∈ xs, IsItem x) :
    items (",".intercalate xs) = xs := by
  cases xs with
  | nil => rfl
  | cons x xs =>
    have hpieces : Text.pieces ',' (",".intercalate (x :: xs)).toList =
        (x :: xs).map String.toList := by
      rw [String.toList_intercalate]
      apply Text.pieces_intercalate
      · intro piece hpiece
        obtain ⟨y, hy, rfl⟩ := List.mem_map.mp hpiece
        exact (h y hy).plain
      · exact List.cons_ne_nil _ _
    have htrimmed : ((x :: xs).map String.toList).map trimmedPiece = x :: xs := by
      rw [List.map_map]
      refine (List.map_congr_left fun y hy => ?_).trans (List.map_id _)
      exact trimmedPiece_of_isItem (h y hy)
    rw [items_eq, hpieces, htrimmed, List.filter_eq_self]
    exact fun y hy => bne_iff_ne.mpr (h y hy).nonempty

/-- A comma between two lists makes them one. -/
theorem items_append (v w : String) : items (v ++ "," ++ w) = items v ++ items w := by
  have hpieces : Text.pieces ',' (v ++ "," ++ w).toList =
      Text.pieces ',' v.toList ++ Text.pieces ',' w.toList := by
    rw [← Text.pieces_append_sep]
    simp
  rw [items_eq, hpieces, List.map_append, List.filter_append, ← items_eq, ← items_eq]

/-- **The items of a variable are in a normal form.** Whether the variable is set or not, its items are
in this form, and they are what the list of them is read as; so are all other items in this form. Two
lists with a comma between them are read as the items of the one and those of the other. -/
theorem items_normal :
    (∀ v : Option String, ∀ x ∈ items (v.getD ""), IsItem x) ∧
    (∀ xs : List String, (∀ x ∈ xs, IsItem x) → items (",".intercalate xs) = xs) ∧
    (∀ v : Option String, items (",".intercalate (items (v.getD ""))) = items (v.getD "")) ∧
    ∀ v w : String, items (v ++ "," ++ w) = items v ++ items w := by
  refine ⟨fun v x => isItem_of_mem_items, fun xs => items_intercalate, fun v => ?_, items_append⟩
  exact items_intercalate fun x => isItem_of_mem_items

/-- Two remappings, one of which has a blank inside. -/
theorem items_normal_remappings :
    (∀ x ∈ ["@oz=lib/oz", "ds=lib/d s"], IsItem x) ∧
    items ",@oz=lib/oz , ,\u3000ds=lib/d s\t" = ["@oz=lib/oz", "ds=lib/d s"] ∧
    items (",".intercalate ["@oz=lib/oz", "ds=lib/d s"]) = ["@oz=lib/oz", "ds=lib/d s"] := by
  have hread : items ",@oz=lib/oz , ,\u3000ds=lib/d s\t" = ["@oz=lib/oz", "ds=lib/d s"] := by
    decide +kernel
  have hitems : ∀ x ∈ ["@oz=lib/oz", "ds=lib/d s"], IsItem x := by
    rw [← hread]
    exact items_normal.1 (some _)
  exact ⟨hitems, hread, items_normal.2.1 _ hitems⟩

end Environment

end ContractBindings
