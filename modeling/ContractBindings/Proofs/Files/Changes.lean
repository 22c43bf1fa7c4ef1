import ContractBindings.Proofs.Files.Places
import ContractBindings.Proofs.Outcome

/-!
# Changes of a disk

What each operation leaves at the places of a disk: the one it is about holds
what was written or moved, and the others are as before. Directories stay, so
a path that leads to a place goes on to do so.
-/

namespace ContractBindings.Files.Disk

variable {d d' e : Disk} {path : String} {bytes : List UInt8} {p : Place}

theorem telling_eq_ok {α : Type} {work : Except Cause α} {a : α} :
    telling path work = .ok a ↔ Text.hasNull path = false ∧ work = .ok a := by
  unfold telling
  cases Text.hasNull path with
  | true => simp
  | false => simp [except_mapError_eq_ok]

/-! ## Reading -/

theorem find_eq_ok {n : Node} :
    d.find path = .ok n ↔ ∃ p, d.locate path = .ok p ∧ d.node? p = some n := by
  unfold find
  rw [except_bind_eq_ok]
  constructor
  · rintro ⟨p, hp, h⟩
    split at h
    · next hn => cases h; exact ⟨p, hp, hn⟩
    · cases h
  · rintro ⟨p, hp, hn⟩
    exact ⟨p, hp, by rw [hn]⟩

theorem read_eq_ok : d.read path = .ok bytes ↔
    Text.hasNull path = false ∧ ∃ p, d.locate path = .ok p ∧ d.node? p = some (.file bytes) := by
  unfold read
  rw [telling_eq_ok, except_bind_eq_ok]
  apply and_congr_right
  intro _
  constructor
  · rintro ⟨n, hf, h⟩
    split at h
    · next b => cases h; exact find_eq_ok.mp hf
    · cases h
  · intro h
    exact ⟨_, find_eq_ok.mpr h, rfl⟩

theorem node?_of_read (h : d.read path = .ok bytes) :
    d.node? (placeOf d.here path) = some (.file bytes) := by
  obtain ⟨-, p, hp, hn⟩ := read_eq_ok.mp h
  rw [← locate_eq hp]
  exact hn

/-! ## Disks with more on them -/

structure Extends (d d' : Disk) : Prop where
  here : d'.here = d.here
  directories : ∀ p, d.node? p = some .directory → d'.node? p = some .directory

theorem Extends.refl (d : Disk) : Extends d d := ⟨rfl, fun _ h => h⟩

theorem Extends.trans (h : Extends d d') (h' : Extends d' e) : Extends d e :=
  ⟨h'.here.trans h.here, fun p hp => h'.directories p (h.directories p hp)⟩

theorem Extends.follow (h : Extends d d') : ∀ {names : List String} {p q : Place},
    d.follow p names = .ok q → d'.follow p names = .ok q
  | [], _, _, hf => hf
  | name :: names, p, q, hf => by
    rw [Disk.follow] at hf ⊢
    split at hf
    · cases hf
    · cases hf
    · next hd =>
      rw [h.directories p hd]
      dsimp only
      split at hf
      · next hs => rw [if_pos hs]; exact h.follow hf
      · next hs =>
        rw [if_neg hs]
        split at hf
        · next hu => rw [if_pos hu]; exact h.follow hf
        · next hu =>
          rw [if_neg hu]
          split at hf
          · cases hf
          · next hl => rw [if_neg hl]; exact h.follow hf

theorem Extends.locate (h : Extends d d') (hp : d.locate path = .ok p) :
    d'.locate path = .ok p := by
  unfold Disk.locate at hp ⊢
  split at hp
  · cases hp
  · next he =>
    rw [if_neg he]
    split at hp
    · cases hp
    · next hl =>
      rw [if_neg hl]
      generalize (Text.pieces '/' path.toList).map String.ofList = names at hp ⊢
      dsimp only at hp ⊢
      split at hp
      · exact h.follow hp
      · rw [h.here]; exact h.follow hp

theorem Extends.read (h : Extends d d')
    (hn : d'.node? (placeOf d.here path) = d.node? (placeOf d.here path))
    (hr : d.read path = .ok bytes) : d'.read path = .ok bytes := by
  obtain ⟨h0, p, hp, hb⟩ := read_eq_ok.mp hr
  refine read_eq_ok.mpr ⟨h0, p, h.locate hp, ?_⟩
  rw [locate_eq hp] at hb ⊢
  rw [hn]; exact hb

theorem extends_put {n : Node} (h : d.node? p ≠ some .directory) : Extends d (d.put p n) := by
  refine ⟨rfl, fun q hq => ?_⟩
  rw [node?_put_of_ne d (by rintro rfl; exact h hq)]
  exact hq

theorem ne_nil_of_node? (h : d.node? p ≠ some .directory) : p ≠ [] := by
  rintro rfl
  exact h rfl

/-! ## Writing -/

theorem write_eq_ok : d.write path bytes = .ok d' ↔ Text.hasNull path = false ∧
    ∃ p, d.locate path = .ok p ∧ d.node? p ≠ some .directory ∧ d' = d.put p (.file bytes) := by
  unfold write
  rw [telling_eq_ok, except_bind_eq_ok]
  apply and_congr_right
  intro _
  apply exists_congr
  intro p
  apply and_congr_right
  intro _
  constructor
  · intro h
    split at h
    · cases h
    · next hn => cases h; exact ⟨hn, rfl⟩
  · rintro ⟨hn, rfl⟩
    split
    · next hd => exact absurd hd hn
    · rfl

theorem extends_write (h : d.write path bytes = .ok d') : Extends d d' := by
  obtain ⟨-, p, -, hn, rfl⟩ := write_eq_ok.mp h
  exact extends_put hn

theorem read_write (h : d.write path bytes = .ok d') : d'.read path = .ok bytes := by
  obtain ⟨h0, p, hp, hn, rfl⟩ := write_eq_ok.mp h
  exact read_eq_ok.mpr ⟨h0, p, (extends_put hn).locate hp, node?_put_self d (ne_nil_of_node? hn) _⟩

theorem node?_write_of_ne (h : d.write path bytes = .ok d') {q : Place}
    (hq : q ≠ placeOf d.here path) : d'.node? q = d.node? q := by
  obtain ⟨-, p, hp, hn, rfl⟩ := write_eq_ok.mp h
  rw [← locate_eq hp] at hq
  exact node?_put_of_ne d hq _

theorem read_write_of_ne {other : String} {old : List UInt8} (h : d.write path bytes = .ok d')
    (hne : placeOf d.here other ≠ placeOf d.here path) (hr : d.read other = .ok old) :
    d'.read other = .ok old :=
  (extends_write h).read (node?_write_of_ne h hne) hr

/-! ## Making directories -/

structure Grows (d d' : Disk) : Prop where
  here : d'.here = d.here
  nodes : ∀ p n, d.node? p = some n → d'.node? p = some n

theorem Grows.refl (d : Disk) : Grows d d := ⟨rfl, fun _ _ h => h⟩

theorem Grows.trans (h : Grows d d') (h' : Grows d' e) : Grows d e :=
  ⟨h'.here.trans h.here, fun p n hp => h'.nodes p n (h.nodes p n hp)⟩

theorem Grows.extends (h : Grows d d') : Extends d d' := ⟨h.here, fun p => h.nodes p .directory⟩

theorem Grows.read (h : Grows d d') (hr : d.read path = .ok bytes) : d'.read path = .ok bytes :=
  h.extends.read (by rw [node?_of_read hr]; exact h.nodes _ _ (node?_of_read hr)) hr

theorem grows_put {n : Node} (h : d.node? p = none) : Grows d (d.put p n) := by
  refine ⟨rfl, fun q m hq => ?_⟩
  rw [node?_put_of_ne d (by rintro rfl; rw [h] at hq; cases hq)]
  exact hq

theorem makeDirectory_eq_ok (h : d.makeDirectory path = .ok d') :
    ∃ p, d.locate path = .ok p ∧ d.node? p = none ∧ d' = d.put p .directory := by
  unfold makeDirectory at h
  obtain ⟨-, hw⟩ := telling_eq_ok.mp h
  obtain ⟨p, hl, hp⟩ := except_bind_eq_ok.mp hw
  split at hp
  · cases hp
  · next hn => cases hp; exact ⟨p, hl, hn, rfl⟩

theorem ensureDirectory_eq_ok (h : d.ensureDirectory path = .ok d') :
    d' = d ∨ ∃ p, d.locate path = .ok p ∧ d.node? p = none ∧ d' = d.put p .directory := by
  unfold ensureDirectory at h
  split at h
  · cases h
  · split at h
    · cases h; exact .inl rfl
    · cases h
  · next hm => cases h; exact .inr (makeDirectory_eq_ok hm)

section
variable {R : Disk → Disk → Prop} (hrefl : ∀ d, R d d)
  (htrans : ∀ {d d' e}, R d d' → R d' e → R d e)
include hrefl

theorem attempt_ensureDirectory (hstep : ∀ p, d.locate path = .ok p → d.node? p = none →
    R d (d.put p .directory)) : R d (d.attempt (d.ensureDirectory path)).1 := by
  cases ho : d.ensureDirectory path with
  | error f => exact hrefl d
  | ok d' =>
    obtain rfl | ⟨p, hl, hn, rfl⟩ := ensureDirectory_eq_ok ho
    · exact hrefl _
    · exact hstep p hl hn

include htrans

theorem ensureAbove_steps (root : String) : ∀ (components : List String) (d : Disk),
    (∀ above, above <:+ components → ∀ d p, d.locate (Path.toString ⟨root, above.reverse⟩) = .ok p →
      d.node? p = none → R d (d.put p .directory)) → R d (ensureAbove root components d).1
  | [], d, hstep => by
    unfold ensureAbove
    exact attempt_ensureDirectory hrefl (hstep [] List.suffix_rfl d)
  | c :: above, d, hstep => by
    have hlast := hstep (c :: above) List.suffix_rfl
    unfold ensureAbove
    dsimp only
    split
    · next hcs _ =>
      cases hcs
      have ih := ensureAbove_steps root above d fun cs hcs =>
        hstep cs (hcs.trans (List.suffix_cons c above))
      split
      · next d' hd =>
        rw [hd] at ih
        exact htrans ih (attempt_ensureDirectory hrefl (hlast d'))
      · exact ih
    · exact attempt_ensureDirectory hrefl (hlast d)

/-- To make a directory with those above it is to make one new directory after the other, each on the
way to the last one. -/
theorem ensureDirectories_steps {p : Path} (hstep : ∀ cs, cs <+: p.components → ∀ d q,
    d.locate (Path.toString ⟨p.root, cs⟩) = .ok q → d.node? q = none → R d (d.put q .directory))
    (d : Disk) : R d (d.ensureDirectories p).1 := by
  apply ensureAbove_steps hrefl htrans
  intro above habove
  apply hstep
  have hprefix := List.reverse_prefix.mpr habove
  rwa [List.reverse_reverse] at hprefix

end

theorem grows_ensureDirectories (d : Disk) (p : Path) : Grows d (d.ensureDirectories p).1 :=
  ensureDirectories_steps Grows.refl Grows.trans (fun _ _ _ _ _ hn => grows_put hn) d

/-! ## Moving -/

theorem move_eq_ok {source target : String} (h : d.move source target = .ok d') :
    ∃ n, d.node? (placeOf d.here source) = some n ∧
      ((placeOf d.here source = placeOf d.here target ∧ d' = d) ∨
        (placeOf d.here source ≠ placeOf d.here target ∧
          d.conflict? (placeOf d.here target) n (d.node? (placeOf d.here target)) = none ∧
          d' = d.relocate (placeOf d.here source) (placeOf d.here target))) := by
  unfold move at h
  split at h
  · cases h
  · obtain ⟨s, hs, h⟩ := except_bind_eq_ok.mp (except_mapError_eq_ok.mp h)
    rw [← locate_eq hs]
    split at h
    · cases h
    · next n hn =>
      obtain ⟨t, ht, h⟩ := except_bind_eq_ok.mp h
      rw [← locate_eq ht]
      refine ⟨n, hn, ?_⟩
      split at h
      · next he => cases h; exact Or.inl ⟨he, rfl⟩
      · next hne =>
        split at h
        · cases h
        · next hc => cases h; exact Or.inr ⟨hne, hc, rfl⟩

theorem lookup_moved (s t r : Place) : ∀ l : List (Place × Node),
    ((l.filter (isWithin s ·.1)).map fun (q, n) => (t ++ q.drop s.length, n)).lookup (t ++ r) =
      l.lookup (s ++ r)
  | [] => rfl
  | (q, n) :: l => by
    have ih := lookup_moved s t r l
    -- a place within the source keeps the way from it, and no other one is moved
    by_cases hw : isWithin s q = true
    · obtain ⟨w, rfl⟩ := List.isPrefixOf_iff_prefix.mp hw
      rw [List.filter_cons, if_pos hw, List.map_cons, List.lookup_cons, List.lookup_cons, ih]
      have hkey : (t ++ r == t ++ w) = (s ++ r == s ++ w) := by
        rw [Bool.eq_iff_iff, beq_iff_eq, beq_iff_eq, List.append_cancel_left_eq,
          List.append_cancel_left_eq]
      rw [List.drop_left, hkey]
    · have hne : s ++ r ≠ q := by
        rintro rfl
        exact hw (List.isPrefixOf_iff_prefix.mpr (List.prefix_append s r))
      rw [List.filter_cons, if_neg hw, ih, List.lookup_cons, beq_eq_false_iff_ne.mpr hne]

theorem lookup_filter_place (f : Place → Bool) (q : Place) : ∀ l : List (Place × Node),
    (l.filter fun e => f e.1).lookup q = if f q then l.lookup q else none
  | [] => by simp
  | (p, n) :: l => by
    have ih := lookup_filter_place f q l
    by_cases hp : f p = true
    · rw [List.filter_cons, if_pos hp, List.lookup_cons, List.lookup_cons, ih]
      by_cases hq : q = p
      · subst hq
        simp [hp]
      · rw [beq_eq_false_iff_ne.mpr hq]
    · rw [List.filter_cons, if_neg hp, ih, List.lookup_cons]
      by_cases hq : q = p
      · subst hq
        simp [hp]
      · rw [beq_eq_false_iff_ne.mpr hq]

/-- What is at a place after a move: what stayed there, or else what came there. -/
theorem node?_relocate_eq {s t q : Place} (hq : q ≠ []) :
    (d.relocate s t).node? q =
      ((if !isWithin s q && q != t then d.node? q else none).or
        (((d.nodes.filter (isWithin s ·.1)).map
          fun (q, n) => (t ++ q.drop s.length, n)).lookup q)) := by
  unfold node? relocate
  rw [if_neg hq, if_neg hq]
  dsimp only
  rw [List.lookup_append, lookup_filter_place fun p => !isWithin s p && p != t]

theorem node?_relocate {s t : Place} (hs : s ≠ []) (ht : t ≠ []) :
    (d.relocate s t).node? t = d.node? s := by
  have hmoved := lookup_moved s t [] d.nodes
  rw [List.append_nil, List.append_nil] at hmoved
  rw [node?_relocate_eq ht, hmoved]
  simp [node?, hs]

theorem node?_move {source target : String} (h : d.move source target = .ok d')
    (hs : placeOf d.here source ≠ []) (ht : placeOf d.here target ≠ []) :
    d'.here = d.here ∧ d'.node? (placeOf d.here target) = d.node? (placeOf d.here source) := by
  obtain ⟨n, -, ⟨he, rfl⟩ | ⟨-, -, rfl⟩⟩ := move_eq_ok h
  · exact ⟨rfl, by rw [he]⟩
  · exact ⟨rfl, node?_relocate hs ht⟩

/-- What a move has brought to its target can be read there. -/
theorem read_move {source target : String} (h : d.move source target = .ok d') (he : Extends d d')
    (hn : d'.node? (placeOf d.here target) = some (.file bytes)) : d'.read target = .ok bytes := by
  unfold move at h
  split at h
  · cases h
  · next hnull =>
    rw [Bool.not_eq_true, Bool.or_eq_false_iff] at hnull
    obtain ⟨s, -, h⟩ := except_bind_eq_ok.mp (except_mapError_eq_ok.mp h)
    split at h
    · cases h
    · obtain ⟨t, ht, -⟩ := except_bind_eq_ok.mp h
      rw [← locate_eq ht] at hn
      exact read_eq_ok.mpr ⟨hnull.2, t, he.locate ht, hn⟩

end ContractBindings.Files.Disk
