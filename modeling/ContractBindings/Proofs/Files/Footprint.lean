import ContractBindings.Proofs.Files.Changes
import Mathlib.Data.List.Induction

/-!
# What an operation leaves alone

Each operation on a disk changes one place or makes directories on the way to
one. On a disk that is a tree nothing lies below a file, so a file that is moved
takes nothing along.
-/

namespace ContractBindings.Files

def Path.OnWay (here : Place) (p : Path) (q : Place) : Prop :=
  ∃ cs, cs <+: p.components ∧ q = resolve (start here p) cs

theorem Path.IsNormal.of_prefix {p : Path} (hp : p.IsNormal) {cs : List String}
    (h : cs <+: p.components) : IsNormal ⟨p.root, cs⟩ :=
  ⟨hp.root, fun c hc => hp.components c (h.subset hc)⟩

theorem Path.OnWay.join {here : Place} {p : Path} {q : Place} {name : String} (hn : IsComponent name)
    (h : p.OnWay here q) : (p.join name).OnWay here q := by
  obtain ⟨cs, hcs, rfl⟩ := h
  refine ⟨cs, ?_, by rw [start_join here hn]⟩
  rw [join_component hn]
  exact hcs.trans (List.prefix_append _ _)

theorem resolve_of_isEntry : ∀ {names : List String}, (∀ n ∈ names, IsEntry n) → ∀ p : Place,
    resolve p names = p ++ names
  | [], _, p => by rw [resolve, List.append_nil]
  | n :: names, h, p => by
    have ih := resolve_of_isEntry fun m hm => h m (List.mem_cons_of_mem n hm)
    rw [resolve_entry (h n List.mem_cons_self), ih, List.append_assoc, List.singleton_append]

theorem Path.OnWay.prefix {here : Place} {p : Path} {q : Place} (hp : p.IsNormal)
    (hup : ".." ∉ p.components) (h : p.OnWay here q) :
    q <+: Disk.placeOf here (toString p) := by
  obtain ⟨cs, hcs, rfl⟩ := h
  have hentry : ∀ c ∈ p.components, IsEntry c := by
    intro c hc
    obtain ⟨-, he, hd⟩ := hp.components c hc
    exact ⟨he, hd, fun hu => hup (hu ▸ hc)⟩
  rw [placeOf_toString hp, resolve_of_isEntry hentry,
    resolve_of_isEntry fun c hc => hentry c (hcs.subset hc)]
  exact (List.prefix_append_right_inj _).mpr hcs

namespace Disk

variable {d d' e : Disk} {path : String} {bytes : List UInt8} {p : Place}

/-! ## Changes at some places -/

/-- From one disk to another some places change at most, and at others there may be new
directories. -/
structure Confined (places ways : Place → Prop) (d d' : Disk) : Prop where
  here : d'.here = d.here
  nodes : ∀ p, ¬places p → d'.node? p = d.node? p ∨
    (ways p ∧ d.node? p = none ∧ d'.node? p = some .directory)

section
variable {places places' ways ways' : Place → Prop}

theorem Confined.refl (d : Disk) : Confined places ways d d := ⟨rfl, fun _ _ => .inl rfl⟩

theorem Confined.trans (h : Confined places ways d d') (h' : Confined places ways d' e) :
    Confined places ways d e := by
  refine ⟨h'.here.trans h.here, fun p hp => ?_⟩
  rcases h.nodes p hp with he | ⟨hw, hn, hd⟩
  · rw [← he]
    exact h'.nodes p hp
  · rcases h'.nodes p hp with he' | ⟨-, hn', -⟩
    · exact .inr ⟨hw, hn, he'.trans hd⟩
    · rw [hd] at hn'
      cases hn'

theorem Confined.mono (h : Confined places ways d d') (hp : ∀ p, places p → places' p)
    (hw : ∀ p, ways p → ways' p) : Confined places' ways' d d' := by
  refine ⟨h.here, fun p hn => ?_⟩
  rcases h.nodes p (fun h => hn (hp p h)) with he | ⟨h, hrest⟩
  · exact .inl he
  · exact .inr ⟨hw p h, hrest⟩

/-- Nothing but directories is new outside the places that may change. -/
theorem Confined.file (h : Confined places ways d d') (hp : ¬places p)
    (hn : d'.node? p = some (.file bytes)) : d.node? p = some (.file bytes) := by
  rcases h.nodes p hp with he | ⟨-, -, hd⟩
  · exact he ▸ hn
  · rw [hd] at hn
    cases hn

theorem Confined.kept (h : Confined places ways d d') (hp : ¬places p) {n : Node}
    (hn : d.node? p = some n) : d'.node? p = some n := by
  rcases h.nodes p hp with he | ⟨-, hnone, -⟩
  · rw [he, hn]
  · rw [hnone] at hn
    cases hn

theorem confined_put (n : Node) (hp : places p) : Confined places ways d (d.put p n) := by
  refine ⟨rfl, fun q hq => .inl (node?_put_of_ne d ?_ n)⟩
  rintro rfl
  exact hq hp

theorem confined_put_directory (hp : ways p) (hn : d.node? p = none) :
    Confined places ways d (d.put p .directory) := by
  refine ⟨rfl, fun q _ => ?_⟩
  by_cases hq : q = p
  · subst hq
    refine .inr ⟨hp, hn, node?_put_self d ?_ _⟩
    rintro rfl
    cases hn
  · exact .inl (node?_put_of_ne d hq _)

theorem confined_write (h : d.write path bytes = .ok d') (hp : places (placeOf d.here path)) :
    Confined places ways d d' := by
  obtain ⟨-, p, hl, -, rfl⟩ := write_eq_ok.mp h
  rw [← locate_eq hl] at hp
  exact confined_put _ hp

theorem confined_ensureDirectories {p : Path} (hp : p.IsNormal) (d : Disk) :
    Confined places (p.OnWay d.here) d (d.ensureDirectories p).1 := by
  have hsteps := ensureDirectories_steps
    (R := fun e e' => e.here = d.here → Confined places (p.OnWay d.here) e e')
    (fun e _ => .refl e) (fun h h' he => (h he).trans (h' ((h he).here.trans he)))
    (p := p) ?_ d
  · exact hsteps rfl
  intro cs hcs e q hl hn he
  refine confined_put_directory ⟨cs, hcs, ?_⟩ hn
  rw [locate_eq hl, he]
  exact Path.placeOf_toString (hp.of_prefix hcs)

end

/-! ## Trees -/

structure IsTree (d : Disk) : Prop where
  here : d.node? d.here = some .directory
  parent : ∀ p n, d.node? p = some n → d.node? p.dropLast = some .directory

theorem isTree_of_nodes (hh : d.node? d.here = some .directory)
    (h : ∀ e ∈ d.nodes, d.node? e.1.dropLast = some .directory) : IsTree d := by
  refine ⟨hh, fun p n hn => ?_⟩
  by_cases hp : p = []
  · subst hp
    rfl
  · rw [node?, if_neg hp] at hn
    obtain ⟨before, after, hnodes, -⟩ := List.lookup_eq_some_iff.mp hn
    exact h (p, n) (by simp [hnodes])

theorem IsTree.put {n : Node} (h : IsTree d) (hp : d.node? p.dropLast = some .directory)
    (hn : d.node? p ≠ some .directory) : IsTree (d.put p n) := by
  have hkeep := (extends_put (n := n) hn).directories
  refine ⟨hkeep _ h.here, fun q m hq => ?_⟩
  by_cases hqp : q = p
  · subst hqp
    exact hkeep _ hp
  · rw [node?_put_of_ne d hqp] at hq
    exact hkeep _ (h.parent q m hq)

theorem IsTree.follow (h : IsTree d) : ∀ {names : List String} {p q : Place},
    d.node? p.dropLast = some .directory → d.follow p names = .ok q →
      d.node? q.dropLast = some .directory
  | [], p, q, hp, hf => by
    cases hf
    exact hp
  | name :: names, p, q, hp, hf => by
    rw [Disk.follow] at hf
    split at hf
    · cases hf
    · cases hf
    · next hd =>
      split at hf
      · exact h.follow hp hf
      · split at hf
        · exact h.follow (h.parent _ _ hp) hf
        · split at hf
          · cases hf
          · refine h.follow ?_ hf
            rw [List.dropLast_concat]
            exact hd

theorem IsTree.locate (h : IsTree d) (hl : d.locate path = .ok p) :
    d.node? p.dropLast = some .directory := by
  unfold Disk.locate at hl
  split at hl
  · cases hl
  · split at hl
    · cases hl
    · dsimp only at hl
      split at hl
      · exact h.follow (p := []) rfl hl
      · exact h.follow (h.parent _ _ h.here) hl

theorem IsTree.write (h : IsTree d) (hw : d.write path bytes = .ok d') : IsTree d' := by
  obtain ⟨-, p, hl, hn, rfl⟩ := write_eq_ok.mp hw
  exact h.put (h.locate hl) hn

theorem IsTree.ensureDirectories (h : IsTree d) (p : Path) : IsTree (d.ensureDirectories p).1 := by
  refine ensureDirectories_steps (R := fun e e' => IsTree e → IsTree e') (fun _ => id)
    (fun hf hg he => hg (hf he)) ?_ d h
  intro _ _ e q hl hn he
  exact he.put (he.locate hl) (by simp [hn])

theorem IsTree.none_below (h : IsTree d) (hp : d.node? p ≠ some .directory) :
    ∀ r, r ≠ [] → d.node? (p ++ r) = none := by
  intro r
  induction r using List.reverseRecOn with
  | nil => exact fun hr => absurd rfl hr
  | append_singleton r name ih =>
    intro _
    cases hn : d.node? (p ++ (r ++ [name])) with
    | none => rfl
    | some n =>
      have hparent := h.parent _ n hn
      rw [← List.append_assoc, List.dropLast_concat] at hparent
      by_cases hr : r = []
      · subst hr
        rw [List.append_nil] at hparent
        exact absurd hparent hp
      · rw [ih hr] at hparent
        cases hparent

/-! ## Moving -/

/-- All that was at or below one place is at or below another one, and nothing else has changed. -/
structure Moved (s t : Place) (d d' : Disk) : Prop where
  here : d'.here = d.here
  source : ∀ r, d'.node? (s ++ r) = none
  target : ∀ r, d'.node? (t ++ r) = d.node? (s ++ r)
  others : ∀ q, ¬s <+: q → ¬t <+: q → d'.node? q = d.node? q

section
variable {s t : Place}

theorem lookup_moved_of_not_within {q : Place} (h : ¬t <+: q) (l : List (Place × Node)) :
    ((l.filter (isWithin s ·.1)).map fun (q, n) => (t ++ q.drop s.length, n)).lookup q = none := by
  rw [List.lookup_eq_none_iff]
  intro e he
  obtain ⟨o, -, rfl⟩ := List.mem_map.mp he
  rw [bne_iff_ne]
  rintro rfl
  exact h (List.prefix_append _ _)

/-- Of two places in one directory neither lies in the other one. -/
theorem not_prefix_of_ne {x y : String} (h : p ++ [x] ≠ p ++ [y]) : ¬(p ++ [x] <+: p ++ [y]) :=
  fun hpre => h (hpre.eq_of_length (by simp))

theorem moved_relocate (hst : ¬s <+: t) (hts : ¬t <+: s)
    (hbelow : ∀ r, r ≠ [] → d.node? (t ++ r) = none) : Moved s t d (d.relocate s t) := by
  have hs : s ≠ [] := fun h => hst (by rw [h]; exact List.nil_prefix)
  have ht : t ≠ [] := fun h => hts (by rw [h]; exact List.nil_prefix)
  -- of two places neither of which lies in the other one, no place lies in both
  have happart : ∀ r, ¬t <+: s ++ r ∧ ¬s <+: t ++ r := by
    intro r
    constructor <;> intro h
    · rcases List.prefix_or_prefix_of_prefix h (List.prefix_append s r) with h | h
      · exact hts h
      · exact hst h
    · rcases List.prefix_or_prefix_of_prefix h (List.prefix_append t r) with h | h
      · exact hst h
      · exact hts h
  refine ⟨rfl, fun r => ?_, fun r => ?_, fun q hsq htq => ?_⟩
  · have hleft : isWithin s (s ++ r) = true := List.isPrefixOf_iff_prefix.mpr (List.prefix_append s r)
    rw [node?_relocate_eq (by simp [hs]), lookup_moved_of_not_within (happart r).1, hleft]
    rfl
  · have hlookup : d.nodes.lookup (s ++ r) = d.node? (s ++ r) := by simp [node?, hs]
    rw [node?_relocate_eq (by simp [ht]), lookup_moved, hlookup]
    by_cases hr : r = []
    · simp [hr]
    · rw [hbelow r hr]
      simp
  · have hkeep : (!isWithin s q && q != t) = true := by
      rw [Bool.and_eq_true, Bool.not_eq_true', bne_iff_ne]
      refine ⟨?_, ?_⟩
      · rw [← Bool.not_eq_true, isWithin, List.isPrefixOf_iff_prefix]
        exact hsq
      · rintro rfl
        exact htq List.prefix_rfl
    by_cases hq : q = []
    · subst hq
      rfl
    · rw [node?_relocate_eq hq, lookup_moved_of_not_within htq, if_pos hkeep, Option.or_none]

/-- Nothing lies below what something can be moved over. -/
theorem IsTree.none_below_target (h : IsTree d) {n : Node}
    (hc : d.conflict? t n (d.node? t) = none) : ∀ r, r ≠ [] → d.node? (t ++ r) = none := by
  by_cases hd : d.node? t = some .directory
  · rw [hd] at hc
    cases n with
    | file b => cases hc
    | directory =>
      have hempty : d.below t = [] := by simpa [conflict?] using hc
      intro r hr
      have hnone : d.nodes.lookup (t ++ r) = none := by
        rw [List.lookup_eq_none_iff]
        rintro ⟨q, m⟩ he
        rw [bne_iff_ne]
        rintro rfl
        have hmem : ((t ++ r).drop t.length, m) ∈ d.below t :=
          List.mem_map.mpr ⟨(t ++ r, m), List.mem_filter.mpr ⟨he, by simp [isWithin, hr]⟩, rfl⟩
        rw [hempty] at hmem
        cases hmem
      rw [node?, if_neg (by simp [hr]), hnone]
  · exact h.none_below hd

/-- A file that is moved within its directory takes no directory away. -/
theorem IsTree.extends_moved_file {name name' : String} (h : IsTree d)
    (hfile : d.node? (p ++ [name]) = some (.file bytes))
    (htarget : d.node? (p ++ [name']) ≠ some .directory)
    (hm : Moved (p ++ [name]) (p ++ [name']) d d') : Extends d d' := by
  have hsource : d.node? (p ++ [name]) ≠ some .directory := by simp [hfile]
  refine ⟨hm.here, fun q hq => ?_⟩
  -- a directory is at neither place nor below one, so it stays
  have happart : ∀ {t}, d.node? t ≠ some .directory → ¬t <+: q := by
    intro t ht hpre
    obtain ⟨r, rfl⟩ := hpre
    by_cases hr : r = []
    · subst hr
      rw [List.append_nil] at hq
      exact ht hq
    · rw [h.none_below ht r hr] at hq
      cases hq
  rw [hm.others q (happart hsource) (happart htarget), hq]

/-- A file that is moved within its directory leaves a tree, and nothing in its old place. -/
theorem IsTree.moved_file {name name' : String} (h : IsTree d)
    (hfile : d.node? (p ++ [name]) = some (.file bytes))
    (htarget : d.node? (p ++ [name']) ≠ some .directory)
    (hm : Moved (p ++ [name]) (p ++ [name']) d d') : IsTree d' := by
  have hsource : d.node? (p ++ [name]) ≠ some .directory := by simp [hfile]
  have hout : d.node? p = some .directory := by
    simpa using h.parent _ _ hfile
  have hkeep := (h.extends_moved_file hfile htarget hm).directories
  refine ⟨by rw [hm.here]; exact hkeep _ h.here, fun q n hn => ?_⟩
  by_cases hqs : p ++ [name] <+: q
  · obtain ⟨r, rfl⟩ := hqs
    rw [hm.source] at hn
    cases hn
  by_cases hqt : p ++ [name'] <+: q
  · obtain ⟨r, rfl⟩ := hqt
    rw [hm.target] at hn
    by_cases hr : r = []
    · subst hr
      simpa using hkeep _ hout
    · rw [h.none_below hsource r hr] at hn
      cases hn
  · rw [hm.others q hqs hqt] at hn
    exact hkeep _ (h.parent q n hn)

theorem IsTree.move_file {source target : String} {name name' : String} (h : IsTree d)
    (hm : d.move source target = .ok d') (hs : placeOf d.here source = p ++ [name])
    (ht : placeOf d.here target = p ++ [name']) (hfile : d.node? (p ++ [name]) = some (.file bytes)) :
    IsTree d' ∧ Extends d d' ∧ (name ≠ name' → d'.node? (p ++ [name]) = none) := by
  obtain ⟨n, hn, hcases⟩ := move_eq_ok hm
  rw [hs, ht] at hcases
  rw [hs, hfile] at hn
  cases hn
  rcases hcases with ⟨he, rfl⟩ | ⟨hne, hc, rfl⟩
  · exact ⟨h, .refl d', fun hnames => absurd (List.singleton_inj.mp (List.append_cancel_left he)) hnames⟩
  have hmoved := moved_relocate (not_prefix_of_ne hne) (not_prefix_of_ne hne.symm) (h.none_below_target hc)
  have htarget : d.node? (p ++ [name']) ≠ some .directory := by
    intro hd
    rw [hd] at hc
    cases hc
  refine ⟨h.moved_file hfile htarget hmoved, h.extends_moved_file hfile htarget hmoved, fun _ => ?_⟩
  simpa using hmoved.source []

/-- A move between two places in one directory either changes these two at most, or moves a directory
with all that it holds. -/
theorem IsTree.move {source target : String} {name name' : String} (h : IsTree d)
    (places ways : Place → Prop) (hm : d.move source target = .ok d')
    (hs : placeOf d.here source = p ++ [name]) (ht : placeOf d.here target = p ++ [name'])
    (hps : places (p ++ [name])) (hpt : places (p ++ [name'])) :
    Confined places ways d d' ∨
      (d.node? (p ++ [name]) = some .directory ∧ Moved (p ++ [name]) (p ++ [name']) d d') := by
  obtain ⟨n, hn, hcases⟩ := move_eq_ok hm
  rw [hs, ht] at hcases
  rw [hs] at hn
  rcases hcases with ⟨-, rfl⟩ | ⟨hne, hc, rfl⟩
  · exact .inl (.refl d')
  have hbelow := h.none_below_target hc
  have hmoved := moved_relocate (not_prefix_of_ne hne) (not_prefix_of_ne hne.symm) hbelow
  cases n with
  | directory => exact .inr ⟨hn, hmoved⟩
  | file b =>
    have hfile := h.none_below (p := p ++ [name]) (by rw [hn]; simp)
    refine .inl ⟨rfl, fun q hq => .inl ?_⟩
    by_cases hqs : p ++ [name] <+: q
    · obtain ⟨r, rfl⟩ := hqs
      have hr : r ≠ [] := by
        rintro rfl
        exact hq (by rwa [List.append_nil])
      rw [hmoved.source, hfile r hr]
    by_cases hqt : p ++ [name'] <+: q
    · obtain ⟨r, rfl⟩ := hqt
      have hr : r ≠ [] := by
        rintro rfl
        exact hq (by rwa [List.append_nil])
      rw [hmoved.target, hfile r hr, hbelow r hr]
    · exact hmoved.others q hqs hqt

end

end Disk

end ContractBindings.Files
