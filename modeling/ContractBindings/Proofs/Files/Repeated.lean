import ContractBindings.Proofs.Files.Footprint

/-!
# Operations that are repeated

A path that leads somewhere leads over directories. A directory that is made
once more stays what it is, and so does a file that is written once more, so
that what has been done to a disk changes nothing when it is done again.
-/

namespace ContractBindings.Files.Disk

variable {d d' e : Disk} {path : String} {bytes : List UInt8} {p q : Place}

structure Same (d d' : Disk) : Prop where
  here : d'.here = d.here
  nodes : ∀ p, d'.node? p = d.node? p

/-! ## Ways that lead somewhere -/

theorem follow_rest : ∀ {names more : List String} {p : Place},
    d.follow p (names ++ more) = .ok q → d.follow (resolve p names) more = .ok q
  | [], _, _, h => h
  | name :: names, more, p, h => by
    rw [List.cons_append, Disk.follow] at h
    rw [resolve]
    split at h
    · cases h
    · cases h
    · split at h
      · next hs =>
        rw [if_pos hs]
        exact follow_rest h
      · next hs =>
        rw [if_neg hs]
        split at h
        · next hu =>
          rw [if_pos hu]
          exact follow_rest h
        · next hu =>
          rw [if_neg hu]
          split at h
          · cases h
          · exact follow_rest h

theorem directory_of_follow {name : String} {names : List String}
    (h : d.follow p (name :: names) = .ok q) : d.node? p = some .directory := by
  rw [Disk.follow] at h
  split at h
  · cases h
  · cases h
  · assumption

theorem follow_of_skip {name : String} (hs : name = "" ∨ name = ".") {names : List String}
    (h : d.follow p (name :: names) = .ok q) : d.follow p names = .ok q := by
  have hd := directory_of_follow h
  rw [Disk.follow, hd] at h
  dsimp only at h
  rwa [if_pos (by simpa using hs)] at h

theorem follow_of_locate {p : Path} (hp : p.IsNormal) (hne : p.components ≠ [])
    (h : d.locate (Path.toString p) = .ok q) :
    d.follow (Path.start d.here p) p.components = .ok q := by
  obtain ⟨root, cs⟩ := p
  obtain ⟨hroot, hcs⟩ := hp
  dsimp only at hroot hcs hne
  have hnames := Path.names_intercalate hcs hne
  unfold Disk.locate at h
  split at h
  · cases h
  split at h
  · cases h
  dsimp only at h
  rcases hroot with rfl | rfl | rfl
  · have ht : Path.toString ⟨"", cs⟩ = "/".intercalate cs := by
      simp [Path.toString, hne]
    rw [ht, hnames] at h
    cases cs with
    | nil => exact absurd rfl hne
    | cons c cs =>
      split at h
      · next he => exact absurd (List.cons.inj he).1 (hcs c List.mem_cons_self).2.1
      · exact h
  · have ht : (Path.toString ⟨"/", cs⟩).toList = '/' :: ("/".intercalate cs).toList := by
      simp [Path.toString]
    rw [ht, Text.pieces_cons_sep, List.map_cons, hnames] at h
    exact h
  · have ht : (Path.toString ⟨"//", cs⟩).toList = '/' :: '/' :: ("/".intercalate cs).toList := by
      simp [Path.toString]
    rw [ht, Text.pieces_cons_sep, Text.pieces_cons_sep, List.map_cons, List.map_cons, hnames] at h
    exact follow_of_skip (.inl rfl) h

/-- What a path leads over to something inside it is a directory. -/
theorem directory_of_onWay {p : Path} (hp : p.IsNormal) {name : String} (hn : Path.IsComponent name)
    (h : d.locate (Path.toString (p.join name)) = .ok q) {w : Place} (hw : p.OnWay d.here w) :
    d.node? w = some .directory := by
  obtain ⟨cs, ⟨more, hmore⟩, rfl⟩ := hw
  have hjoin := Path.join_component hn p
  have hfollow := follow_of_locate (hp.join hn) (by rw [hjoin]; simp) h
  rw [Path.start_join _ hn, hjoin] at hfollow
  dsimp only at hfollow
  rw [← hmore, List.append_assoc] at hfollow
  have hrest := follow_rest hfollow
  cases more with
  | nil => exact directory_of_follow hrest
  | cons m more => exact directory_of_follow hrest

/-! ## Directories -/

theorem isDirectory_iff : d.isDirectory path = true ↔
    ∃ p, d.locate path = .ok p ∧ d.node? p = some .directory := by
  rw [← find_eq_ok]
  unfold isDirectory
  split
  · next hf => simp [hf]
  · next hf => simpa using hf

theorem Extends.isDirectory (h : Extends d d') (hd : d.isDirectory path = true) :
    d'.isDirectory path = true := by
  obtain ⟨p, hp, hn⟩ := isDirectory_iff.mp hd
  exact isDirectory_iff.mpr ⟨p, h.locate hp, h.directories p hn⟩

theorem isDirectory_of_ensured (h : d.ensureDirectory path = .ok d') : d'.isDirectory path = true := by
  unfold ensureDirectory at h
  split at h
  · cases h
  · split at h
    · next hd =>
      cases h
      exact hd
    · cases h
  · next made hm =>
    cases h
    obtain ⟨p, hl, hn, rfl⟩ := makeDirectory_eq_ok hm
    have hnot : d.node? p ≠ some .directory := by simp [hn]
    exact isDirectory_iff.mpr
      ⟨p, (extends_put hnot).locate hl, node?_put_self d (ne_nil_of_node? hnot) _⟩

theorem ensureDirectory_of_isDirectory (h : d.isDirectory path = true) :
    d.ensureDirectory path = .ok d := by
  obtain ⟨p, hl, hn⟩ := isDirectory_iff.mp h
  unfold ensureDirectory makeDirectory telling
  by_cases h0 : Text.hasNull path = true
  · simp [h0, h]
  · simp [h0, h, hl, hn, except_ok_bind, Except.mapError]

theorem isDirectory_of_ensureAbove (root : String) (components : List String)
    (h : ensureAbove root components d = (d', .ok ())) :
    d'.isDirectory (Path.toString ⟨root, components.reverse⟩) = true := by
  have hlast : ∀ {e : Disk} {path : String}, e.attempt (e.ensureDirectory path) = (d', .ok ()) →
      d'.isDirectory path = true := by
    intro e path he
    cases ho : e.ensureDirectory path with
    | error f =>
      rw [ho] at he
      cases he
    | ok made =>
      rw [ho] at he
      cases he
      exact isDirectory_of_ensured ho
  cases components with
  | nil =>
    unfold ensureAbove at h
    exact hlast h
  | cons c above =>
    unfold ensureAbove at h
    dsimp only at h
    split at h
    · next hcs _ =>
      cases hcs
      split at h
      · exact hlast h
      · next hno =>
        rw [h] at hno
        exact absurd rfl (hno _)
    · exact hlast h

theorem isDirectory_of_ensureDirectories {p : Path} (h : d.ensureDirectories p = (d', .ok ())) :
    d'.isDirectory (Path.toString p) = true := by
  have hd := isDirectory_of_ensureAbove p.root p.components.reverse h
  rwa [List.reverse_reverse] at hd

theorem ensureDirectories_of_isDirectory {p : Path} (h : d.isDirectory (Path.toString p) = true) :
    d.ensureDirectories p = (d, .ok ()) := by
  have hone : d.ensureDirectory (Path.toString ⟨p.root, p.components.reverse.reverse⟩) = .ok d := by
    rw [List.reverse_reverse]
    exact ensureDirectory_of_isDirectory h
  unfold ensureDirectories
  cases hcs : p.components.reverse with
  | nil =>
    rw [hcs] at hone
    unfold ensureAbove
    dsimp only
    rw [hone]
    rfl
  | cons c above =>
    rw [hcs] at hone
    unfold ensureAbove
    dsimp only
    rw [hone]
    rfl

/-! ## Files -/

/-- Two files that are written once more, one after the other, are as they were. -/
theorem same_put_put {c h : Place} (hc : c ≠ []) (hh : h ≠ []) (x y : Node) :
    Same ((d.put c x).put h y) ((((d.put c x).put h y).put c x).put h y) := by
  refine ⟨rfl, fun p => ?_⟩
  by_cases hp : p = h
  · subst hp
    rw [node?_put_self _ hh, node?_put_self _ hh]
  · rw [node?_put_of_ne _ hp, node?_put_of_ne _ hp]
    by_cases hpc : p = c
    · subst hpc
      rw [node?_put_self _ hc, node?_put_self _ hc]
    · rw [node?_put_of_ne _ hpc, node?_put_of_ne _ hpc, node?_put_of_ne _ hp, node?_put_of_ne _ hpc]

theorem write_write_again {path path' : String} {bytes bytes' : List UInt8}
    (h : d.write path bytes = .ok d') (h' : d'.write path' bytes' = .ok e) :
    ∃ d'' e', e.write path bytes = .ok d'' ∧ d''.write path' bytes' = .ok e' ∧ Same e e' := by
  obtain ⟨h0, c, hc, hcn, rfl⟩ := write_eq_ok.mp h
  obtain ⟨h0', w, hw, hwn, rfl⟩ := write_eq_ok.mp h'
  have hcne := ne_nil_of_node? hcn
  have hwne := ne_nil_of_node? hwn
  have hmore := (extends_put (n := Node.file bytes) hcn).trans (extends_put (n := Node.file bytes') hwn)
  have hfile : ∀ (f : Disk) {p : Place} (b : List UInt8), p ≠ [] →
      (f.put p (.file b)).node? p ≠ some .directory := by
    intro f p b hp
    rw [node?_put_self _ hp]
    simp
  -- both files are there, so that neither place is a directory
  have hcfile : ((d.put c (.file bytes)).put w (.file bytes')).node? c ≠ some .directory := by
    by_cases hcw : c = w
    · subst hcw
      exact hfile _ _ hcne
    · rw [node?_put_of_ne _ hcw]
      exact hfile _ _ hcne
  have hagain := extends_put (n := Node.file bytes) hcfile
  have hwfile : (((d.put c (.file bytes)).put w (.file bytes')).put c (.file bytes)).node? w ≠
      some .directory := by
    by_cases hwc : w = c
    · subst hwc
      exact hfile _ _ hwne
    · rw [node?_put_of_ne _ hwc]
      exact hfile _ _ hwne
  refine ⟨_, _, write_eq_ok.mpr ⟨h0, c, hmore.locate hc, hcfile, rfl⟩,
    write_eq_ok.mpr ⟨h0', w, ?_, hwfile, rfl⟩, same_put_put hcne hwne _ _⟩
  exact ((extends_put hwn).trans hagain).locate hw

end ContractBindings.Files.Disk
