import ContractBindings.Files.Disk
import ContractBindings.Proofs.Text.Split

/-!
# Places of paths

Where a path leads does not depend on what is on the disk, only whether it
leads anywhere does. So a path has a place of its own (`placeOf`), and for
paths in normal form the place is read off the components.
-/

namespace ContractBindings.Files

/-! ## Following names -/

def resolve (p : Place) : List String → Place
  | [] => p
  | name :: names =>
    if name = "" || name = "." then resolve p names
    else if name = ".." then resolve p.dropLast names
    else resolve (p ++ [name]) names

theorem resolve_append : ∀ (p : Place) (xs ys : List String),
    resolve p (xs ++ ys) = resolve (resolve p xs) ys
  | _, [], _ => rfl
  | p, x :: xs, ys => by
    rw [List.cons_append, resolve, resolve]
    split
    · exact resolve_append p xs ys
    · split
      · exact resolve_append _ xs ys
      · exact resolve_append _ xs ys

theorem resolve_skip {name : String} (h : name = "" ∨ name = ".") (p : Place) (names : List String) :
    resolve p (name :: names) = resolve p names := by
  rw [resolve, if_pos (by simpa using h)]

def IsEntry (name : String) : Prop := name ≠ "" ∧ name ≠ "." ∧ name ≠ ".."

theorem resolve_entry {name : String} (h : IsEntry name) (p : Place) (names : List String) :
    resolve p (name :: names) = resolve (p ++ [name]) names := by
  rw [resolve, if_neg (by simpa using ⟨h.1, h.2.1⟩), if_neg h.2.2]

namespace Disk

variable {d : Disk}

theorem follow_eq : ∀ {names : List String} {p q : Place}, d.follow p names = .ok q →
    q = resolve p names
  | [], p, q, h => by
    rw [follow] at h
    cases h; rfl
  | name :: names, p, q, h => by
    rw [follow] at h
    split at h
    · cases h
    · cases h
    · rw [resolve]
      split at h
      · next hs => rw [if_pos hs]; exact follow_eq h
      · next hs =>
        rw [if_neg hs]
        split at h
        · next hu => rw [if_pos hu]; exact follow_eq h
        · next hu =>
          rw [if_neg hu]
          split at h
          · cases h
          · exact follow_eq h

/-- The place that the names in the text of a path lead to, when relative paths start at the place
`here`. -/
def placeFrom (here : Place) : List String → Place
  | "" :: names => resolve [] names
  | names => resolve here names

def placeOf (here : Place) (path : String) : Place :=
  placeFrom here ((Text.pieces '/' path.toList).map String.ofList)

theorem placeFrom_of_ne {n : String} (h : n ≠ "") (here : Place) (ns : List String) :
    placeFrom here (n :: ns) = resolve here (n :: ns) := by
  unfold placeFrom
  split
  · next he => exact absurd (List.cons.inj he).1 h
  · rfl

theorem placeFrom_append (here : Place) {names : List String} (h : names ≠ []) (more : List String) :
    placeFrom here (names ++ more) = resolve (placeFrom here names) more := by
  cases names with
  | nil => exact absurd rfl h
  | cons n ns =>
    by_cases hn : n = ""
    · subst hn
      exact resolve_append [] ns more
    · rw [List.cons_append, placeFrom_of_ne hn, placeFrom_of_ne hn, ← List.cons_append, resolve_append]

theorem placeOf_inside {name : String} (hs : '/' ∉ name.toList) (he : IsEntry name) (here : Place)
    (directory : String) :
    placeOf here (inside directory name) = placeOf here directory ++ [name] := by
  have hnames : ∀ cs : List Char, (Text.pieces '/' cs).map String.ofList ≠ [] := by
    intro cs
    simpa using Text.pieces_ne_nil '/' cs
  have hname : (Text.pieces '/' name.toList).map String.ofList = [name] := by
    rw [Text.pieces_of_not_mem hs]
    simp
  unfold inside placeOf
  split
  · next hl =>
    obtain ⟨cs, hcs⟩ := List.getLast?_eq_some_iff.mp hl
    have htext : (directory ++ name).toList = cs ++ '/' :: name.toList := by simp [hcs]
    rw [htext, hcs, Text.pieces_append_sep, Text.pieces_append_sep, List.map_append, List.map_append,
      hname, placeFrom_append here (hnames cs), placeFrom_append here (hnames cs)]
    rw [resolve_entry he, resolve]
    rfl
  · have htext : (directory ++ "/" ++ name).toList = directory.toList ++ '/' :: name.toList := by simp
    rw [htext, Text.pieces_append_sep, List.map_append, hname, placeFrom_append here (hnames _),
      resolve_entry he, resolve]

theorem locate_eq {path : String} {p : Place} (h : d.locate path = .ok p) :
    p = placeOf d.here path := by
  unfold locate at h
  split at h
  · cases h
  · split at h
    · cases h
    · unfold placeOf
      -- an empty first name stands before a leading slash
      generalize (Text.pieces '/' path.toList).map String.ofList = names at h ⊢
      dsimp only at h
      cases names with
      | nil => exact follow_eq h
      | cons n ns =>
        by_cases hn : n = ""
        · subst hn
          exact follow_eq h
        · rw [placeFrom_of_ne hn]
          split at h
          · next he => exact absurd (List.cons.inj he).1 hn
          · exact follow_eq h

end Disk

/-! ## Paths in normal form -/

namespace Path

def IsComponent (c : String) : Prop := '/' ∉ c.toList ∧ c ≠ "" ∧ c ≠ "."

/-- The form of all paths: one of three roots, and components in normal form. -/
structure IsNormal (p : Path) : Prop where
  root : p.root = "" ∨ p.root = "/" ∨ p.root = "//"
  components : ∀ c ∈ p.components, IsComponent c

theorem rootOf_cases : ∀ cs : List Char, rootOf cs = "" ∨ rootOf cs = "/" ∨ rootOf cs = "//" := by
  intro cs
  unfold rootOf
  split <;> simp

theorem isNormal_ofString (s : String) : (ofString s).IsNormal where
  root := rootOf_cases s.toList
  components := by
    intro c hc
    obtain ⟨hp, hne⟩ := List.mem_filter.mp hc
    obtain ⟨q, hq, rfl⟩ := List.mem_map.mp hp
    refine ⟨by simpa using Text.not_mem_of_mem_pieces hq, ?_⟩
    simpa using hne

variable {p : Path} {name : String}

theorem ofString_component (h : IsComponent name) : ofString name = ⟨"", [name]⟩ := by
  have hroot : rootOf name.toList = "" := by
    have hm := h.1
    unfold rootOf
    split <;> simp_all
  have hc : componentsOf name.toList = [name] := by
    unfold componentsOf
    rw [Text.pieces_of_not_mem h.1]
    simp [h.2.1, h.2.2]
  rw [ofString, hroot, hc]

theorem join_component (h : IsComponent name) (p : Path) :
    p.join name = ⟨p.root, p.components ++ [name]⟩ := by
  rw [join, ofString_component h]
  rfl

theorem IsNormal.join (hp : p.IsNormal) (h : IsComponent name) : (p.join name).IsNormal := by
  rw [join_component h]
  refine ⟨hp.root, ?_⟩
  intro c hc
  rcases List.mem_append.mp hc with hc | hc
  · exact hp.components c hc
  · rw [List.mem_singleton] at hc
    subst hc; exact h

def start (here : Place) (p : Path) : Place := if p.root = "" then here else []

theorem start_join (here : Place) (h : IsComponent name) (p : Path) :
    start here (p.join name) = start here p := by
  rw [join_component h, start, start]

theorem names_intercalate {cs : List String} (h : ∀ c ∈ cs, IsComponent c) (hne : cs ≠ []) :
    (Text.pieces '/' ("/".intercalate cs).toList).map String.ofList = cs := by
  have hsep : ∀ q ∈ cs.map String.toList, '/' ∉ q := by
    intro q hq
    obtain ⟨c, hc, rfl⟩ := List.mem_map.mp hq
    exact (h c hc).1
  have hslash : "/".toList = ['/'] := by simp
  rw [String.toList_intercalate, hslash, Text.pieces_intercalate hsep (by simpa using hne),
    List.map_map]
  exact List.map_id'' (fun c => String.ofList_toList) cs

theorem resolve_intercalate {cs : List String} (h : ∀ c ∈ cs, IsComponent c) (q : Place) :
    resolve q ((Text.pieces '/' ("/".intercalate cs).toList).map String.ofList) = resolve q cs := by
  cases cs with
  | nil => simp [Text.pieces, resolve]
  | cons c cs => rw [names_intercalate h (List.cons_ne_nil _ _)]

theorem placeOf_toString {here : Place} (hp : p.IsNormal) :
    Disk.placeOf here (toString p) = resolve (start here p) p.components := by
  obtain ⟨root, cs⟩ := p
  obtain ⟨hroot, hcs⟩ := hp
  dsimp only at hroot hcs
  rcases hroot with rfl | rfl | rfl
  · cases cs with
    | nil => rfl
    | cons c cs =>
      have ht : (toString ⟨"", c :: cs⟩) = "/".intercalate (c :: cs) := by
        simp [toString]
      rw [Disk.placeOf, ht, names_intercalate hcs (List.cons_ne_nil _ _),
        Disk.placeFrom_of_ne (hcs c List.mem_cons_self).2.1]
      rfl
  · have ht : (toString ⟨"/", cs⟩).toList = '/' :: ("/".intercalate cs).toList := by
      simp [toString]
    rw [Disk.placeOf, ht, Text.pieces_cons_sep]
    exact resolve_intercalate hcs []
  · have ht : (toString ⟨"//", cs⟩).toList = '/' :: '/' :: ("/".intercalate cs).toList := by
      simp [toString]
    rw [Disk.placeOf, ht, Text.pieces_cons_sep, Text.pieces_cons_sep]
    exact (resolve_skip (.inl rfl) [] _).trans (resolve_intercalate hcs [])

theorem placeOf_join {here : Place} (hp : p.IsNormal) (h : IsComponent name) (he : name ≠ "..") :
    Disk.placeOf here (toString (p.join name)) = Disk.placeOf here (toString p) ++ [name] := by
  rw [placeOf_toString (hp.join h), start_join here h, join_component h, resolve_append,
    placeOf_toString hp, resolve_entry ⟨h.2.1, h.2.2, he⟩, resolve]

/-! ## Names made from a stem -/

theorem not_mem_withoutSuffix (h : '/' ∉ name.toList) : '/' ∉ (withoutSuffix name).toList := by
  unfold withoutSuffix
  split
  · next c stem s suffix hc =>
    intro hm
    rw [String.toList_ofList] at hm
    apply h
    rw [(Text.cutLast?_eq_some hc).1]
    exact List.mem_append_left _ hm
  · exact h

theorem IsNormal.not_mem_name (hp : p.IsNormal) : '/' ∉ p.name.toList := by
  unfold Path.name
  cases hl : p.components.getLast? with
  | none => simp
  | some c => exact (hp.components c (List.mem_of_getLast? hl)).1

theorem IsNormal.not_mem_stem (hp : p.IsNormal) : '/' ∉ p.stem.toList :=
  not_mem_withoutSuffix hp.not_mem_name

theorem isComponent_append {stem suffix : String} (hs : '/' ∉ stem.toList) (hx : '/' ∉ suffix.toList)
    (hl : 2 < suffix.length) : IsComponent (stem ++ suffix) ∧ stem ++ suffix ≠ ".." := by
  have hlen : 2 < (stem ++ suffix).length := by
    rw [String.length_append]
    omega
  have hne : ∀ s : String, s.length ≤ 2 → stem ++ suffix ≠ s := by
    rintro s hs rfl
    omega
  refine ⟨⟨?_, hne "" (by decide), hne "." (by decide)⟩, hne ".." (by decide)⟩
  rw [String.toList_append, List.mem_append, not_or]
  exact ⟨hs, hx⟩

end Path

end ContractBindings.Files
