import ContractBindings.Compilation
import ContractBindings.Proofs.Session.Confines

/-!
# What a compilation leaves

A compilation that succeeds leaves the compiler's output under the name of the
source, and it is read from there. One that fails may have changed the output
under its two names, and no other file.
-/

namespace ContractBindings.Compilation

open Session Files

variable {tools : Toolchain} {source directory : Path} {compiler : String} {remappings : List String}
  {optimize : Bool} {s t : State}

theorem isComponent_outputName : Path.IsComponent outputName ∧ outputName ≠ ".." := by
  refine ⟨⟨?_, ?_, ?_⟩, ?_⟩ <;> decide

def jobFor (source directory : Path) (compiler : String) (remappings : List String)
    (optimize : Bool) : CompileJob :=
  { source := toString source, directory := toString directory, remappings, optimize, compiler }

def outputPath (source directory : Path) : Path := directory.join (source.stem ++ ".json")

theorem isComponent_stem {source : Path} (hs : source.IsNormal) (suffix : String)
    (hx : '/' ∉ suffix.toList) (hl : 2 < suffix.length) :
    Path.IsComponent (source.stem ++ suffix) ∧ source.stem ++ suffix ≠ ".." :=
  Path.isComponent_append hs.not_mem_stem hx hl

theorem placeOf_output (hd : directory.IsNormal) (here : Place) :
    Disk.placeOf here (toString (directory.join outputName)) =
      Disk.placeOf here (toString directory) ++ [outputName] :=
  Path.placeOf_join hd isComponent_outputName.1 isComponent_outputName.2

theorem placeOf_outputPath (hs : source.IsNormal) (hd : directory.IsNormal) (here : Place) :
    Disk.placeOf here (toString (outputPath source directory)) =
      Disk.placeOf here (toString directory) ++ [source.stem ++ ".json"] := by
  obtain ⟨hc, hne⟩ := isComponent_stem hs ".json" (by decide) (by decide)
  exact Path.placeOf_join hd hc hne

theorem placeOf_inside_output (directory : Path) (here : Place) :
    Disk.placeOf here (inside (toString directory) outputName) =
      Disk.placeOf here (toString directory) ++ [outputName] := by
  obtain ⟨hc, hne⟩ := isComponent_outputName
  exact Disk.placeOf_inside hc.1 ⟨hc.2.1, hc.2.2, hne⟩ here (toString directory)

/-! ## The compiler that is found -/

def located (tools : Toolchain) (version path : Option String) : Except Error String :=
  match path.filter (· != ""), version.filter (· != "") with
  | some path, _ => .ok path
  | none, some version => tools.executable (some version)
  | none, none =>
    match (tools.onPath "solc").filter (· != "") with
    | some path => .ok path
    | none => tools.executable none

theorem runs_executable_ok {version : Option String} {compiler : String}
    (h : Runs (executable tools version) s (.ok compiler) t) :
    tools.executable version = .ok compiler := by
  unfold executable at h
  rw [runs_bind_of_ok (runs_record.mpr ⟨rfl, rfl⟩)] at h
  exact (runs_ofExcept.mp h).1.symm

theorem runs_find_ok {version path : Option String}
    (h : Runs (find tools version path) s (.ok compiler) t) :
    located tools version path = .ok compiler := by
  unfold find at h
  split at h
  · next p hp =>
    simp only [located, hp]
    unfold findAt at h
    rw [runs_get_bind] at h
    obtain ⟨found, u, -, h⟩ := runs_bind_ok.mp h
    split at h
    · exact (runs_pure.mp h).1.symm
    · rw [runs_log_bind, runs_throw] at h
      cases h.1
  · next v hp hv =>
    simp only [located, hp, hv]
    unfold install at h
    rcases runs_tryCatch.mp h with ⟨_, h, hc⟩ | ⟨e, u, -, h⟩
    · cases hc
      rw [runs_bind_of_ok (runs_record.mpr ⟨rfl, rfl⟩)] at h
      obtain ⟨_, u, -, h⟩ := runs_bind_ok.mp h
      exact runs_executable_ok h
    · dsimp only at h
      rw [runs_log_bind, runs_throw] at h
      cases h.1
  · next hp hv =>
    simp only [located, hp, hv]
    unfold findAny at h
    rw [runs_bind_of_ok (runs_record.mpr ⟨rfl, rfl⟩)] at h
    cases hfound : (tools.onPath "solc").filter (· != "") with
    | some p =>
      rw [hfound] at h
      exact (runs_pure.mp h).1.symm
    | none =>
      rw [hfound] at h
      rcases runs_tryCatch.mp h with ⟨_, h, hc⟩ | ⟨e, u, -, h⟩
      · cases hc
        exact runs_executable_ok h
      · split at h
        · rw [runs_log_bind, runs_throw] at h
          cases h.1
        · cases (runs_throw.mp h).1

/-! ## A compilation that succeeds -/

theorem runs_runCompiler_ok {job : CompileJob} (h : Runs (runCompiler tools job) s (.ok ()) t) :
    t.disk.here = s.disk.here ∧ ∀ bytes, tools.compile job = .ok (some bytes) →
      t.disk.node? (Disk.placeOf t.disk.here (inside job.directory outputName)) =
        some (.file bytes) := by
  unfold runCompiler at h
  rw [runs_bind_of_ok (runs_record.mpr ⟨rfl, rfl⟩)] at h
  split at h
  · next hc =>
    obtain ⟨-, rfl⟩ := runs_pure.mp h
    refine ⟨rfl, fun bytes hb => ?_⟩
    rw [hc] at hb; cases hb
  · next bytes hc =>
    obtain ⟨disk, hw, rfl⟩ := runs_onDisk_ok.mp h
    refine ⟨(Disk.extends_write hw).here, fun bytes' hb => ?_⟩
    rw [hc] at hb
    cases hb
    exact Disk.node?_of_read (Disk.read_write hw)
  · rw [runs_log_bind, runs_throw] at h
    cases h.1
  · cases (runs_throw.mp h).1

theorem runs_rename_ok {source target : Path} (h : Runs (rename source target) s (.ok ()) t) :
    ∃ disk, s.disk.move (toString source) (toString target) = .ok disk ∧ t = { s with disk } := by
  unfold rename at h
  rcases runs_tryCatch.mp h with ⟨_, h, -⟩ | ⟨e, u, -, h⟩
  · exact runs_onDisk_ok.mp h
  · split at h
    · rw [runs_log_bind, runs_throw] at h
      cases h.1
    · cases (runs_throw.mp h).1

/-- The output of the compiler lies at the path that a compilation gives. -/
theorem runs_compile_ok {target : Path} (hs : source.IsNormal) (hd : directory.IsNormal)
    (h : Runs (compile tools source directory compiler remappings optimize) s (.ok target) t) :
    target = outputPath source directory ∧ t.disk.here = s.disk.here ∧
      ∀ bytes, tools.compile (jobFor source directory compiler remappings optimize) = .ok (some bytes) →
        t.disk.node? (Disk.placeOf t.disk.here (toString target)) = some (.file bytes) := by
  unfold compile at h
  obtain ⟨_, u, hdirs, h⟩ := runs_bind_ok.mp h
  obtain ⟨disk, hg, rfl⟩ := runs_ensureDirectories_ok hdirs
  obtain ⟨_, v, hcomp, h⟩ := runs_bind_ok.mp h
  obtain ⟨hhere, hout⟩ := runs_runCompiler_ok hcomp
  rw [runs_log_bind] at h
  obtain ⟨_, w, hmove, h⟩ := runs_bind_ok.mp h
  obtain ⟨disk', hm, rfl⟩ := runs_rename_ok hmove
  obtain ⟨ht, rfl⟩ := runs_pure.mp h
  cases ht
  have hsource : Disk.placeOf v.disk.here (toString (directory.join outputName)) =
      Disk.placeOf v.disk.here (inside (toString directory) outputName) :=
    (placeOf_output hd _).trans (placeOf_inside_output directory _).symm
  obtain ⟨hh, hn⟩ := Disk.node?_move hm (by rw [placeOf_output hd]; simp)
    (by rw [show directory.join (source.stem ++ ".json") = outputPath source directory from rfl,
      placeOf_outputPath hs hd]; simp)
  refine ⟨rfl, ?_, fun bytes hb => ?_⟩
  · exact (hh.trans hhere).trans hg.here
  · dsimp only
    rw [hh, show directory.join (source.stem ++ ".json") = outputPath source directory from rfl]
    exact hn.trans (hsource ▸ hout bytes hb)

theorem runs_runCompiler_answered (job : CompileJob) (h : Runs (runCompiler tools job) s (.ok ()) t) :
    ∃ written, tools.compile job = .ok written := by
  unfold runCompiler at h
  rw [runs_bind_of_ok (runs_record.mpr ⟨rfl, rfl⟩)] at h
  cases hjob : tools.compile job with
  | ok written => exact ⟨written, rfl⟩
  | error e =>
    rw [hjob] at h
    split at h
    · next hc => cases hc
    · next hc => cases hc
    · rw [runs_log_bind, runs_throw] at h
      cases h.1
    · cases (runs_throw.mp h).1

theorem runs_runCompiler_written (job : CompileJob) {bytes : List UInt8}
    (hb : tools.compile job = .ok (some bytes)) (h : Runs (runCompiler tools job) s (.ok ()) t) :
    s.disk.write (inside job.directory outputName) bytes = .ok t.disk := by
  unfold runCompiler at h
  rw [runs_bind_of_ok (runs_record.mpr ⟨rfl, rfl⟩), hb] at h
  obtain ⟨disk, hw, rfl⟩ := runs_onDisk_ok.mp h
  exact hw

theorem runs_compile_answered {target : Path}
    (h : Runs (compile tools source directory compiler remappings optimize) s (.ok target) t) :
    ∃ written, tools.compile (jobFor source directory compiler remappings optimize) = .ok written := by
  unfold compile at h
  obtain ⟨_, u, -, h⟩ := runs_bind_ok.mp h
  obtain ⟨_, v, hcomp, -⟩ := runs_bind_ok.mp h
  exact runs_runCompiler_answered _ hcomp

/-- A compiler that writes its output leaves a tree, in which the output has its new name only. -/
theorem runs_compile_tree {target : Path} {bytes : List UInt8} (hs : source.IsNormal)
    (hd : directory.IsNormal) (htree : s.disk.IsTree)
    (hb : tools.compile (jobFor source directory compiler remappings optimize) = .ok (some bytes))
    (h : Runs (compile tools source directory compiler remappings optimize) s (.ok target) t) :
    t.disk.IsTree ∧
      s.disk.node? (Disk.placeOf s.disk.here (toString directory) ++ [outputName]) ≠ some .directory ∧
      (outputName ≠ source.stem ++ ".json" →
        t.disk.node? (Disk.placeOf s.disk.here (toString directory) ++ [outputName]) = none) := by
  unfold compile at h
  obtain ⟨_, u, hdirs, h⟩ := runs_bind_ok.mp h
  obtain ⟨_, v, hcomp, h⟩ := runs_bind_ok.mp h
  rw [runs_log_bind] at h
  obtain ⟨_, w, hmove, h⟩ := runs_bind_ok.mp h
  obtain ⟨-, ht⟩ := runs_pure.mp h
  have hmade : u.disk.IsTree := disk_ensureDirectories hdirs ▸ htree.ensureDirectories directory
  obtain ⟨made, hg, hu⟩ := runs_ensureDirectories_ok hdirs
  replace hg : s.disk.Grows u.disk := hu ▸ hg
  have hw := runs_runCompiler_written _ hb hcomp
  have hhere : v.disk.here = s.disk.here := (Disk.extends_write hw).here.trans hg.here
  obtain ⟨disk, hm, hdisk⟩ := runs_rename_ok hmove
  replace hdisk : t.disk = disk := by rw [ht, hdisk]
  have houtput : Disk.placeOf s.disk.here (inside (toString directory) outputName) =
      Disk.placeOf s.disk.here (toString directory) ++ [outputName] := placeOf_inside_output _ _
  have hfile : v.disk.node? (Disk.placeOf s.disk.here (toString directory) ++ [outputName]) =
      some (.file bytes) := by
    rw [← houtput, ← hhere]
    exact Disk.node?_of_read (Disk.read_write hw)
  have hsource : Disk.placeOf v.disk.here (toString (directory.join outputName)) =
      Disk.placeOf s.disk.here (toString directory) ++ [outputName] := by
    rw [placeOf_output hd, hhere]
  have htarget : Disk.placeOf v.disk.here (toString (directory.join (source.stem ++ ".json"))) =
      Disk.placeOf s.disk.here (toString directory) ++ [source.stem ++ ".json"] := by
    rw [← hhere]
    exact placeOf_outputPath hs hd v.disk.here
  rw [hdisk]
  obtain ⟨htree', -, hgone⟩ := (hmade.write hw).move_file hm hsource htarget hfile
  refine ⟨htree', fun hdir => ?_, hgone⟩
  -- the output is not written over a directory
  obtain ⟨-, p, hl, hn, -⟩ := Disk.write_eq_ok.mp hw
  have hp : p = Disk.placeOf s.disk.here (toString directory) ++ [outputName] := by
    rw [Disk.locate_eq hl, hg.here]
    exact houtput
  exact hn (hg.extends.directories _ (hp ▸ hdir))

/-! ## What a compilation may change -/

/-- What a compilation in the directory at `out` leaves: the output of the compiler and the file with
its new name may have changed, and there may be new directories on the way. Where a directory has the
name of the output, it has moved with all that it holds. -/
def Footprint (out : Place) (stem : String) (ways : Place → Prop) (before after : Disk) : Prop :=
  Disk.Confined (fun p => p = out ++ [outputName] ∨ p = out ++ [stem ++ ".json"]) ways before after ∨
    ∃ made, Disk.Confined (fun _ => False) ways before made ∧
      made.node? (out ++ [outputName]) = some .directory ∧
      Disk.Moved (out ++ [outputName]) (out ++ [stem ++ ".json"]) made after

/-- A compiler leaves what it writes in one file, so where there is a directory, nothing has changed. -/
theorem runs_runCompiler_footprint (job : CompileJob) {p : Place} (ways : Place → Prop)
    (htree : s.disk.IsTree) (hp : Disk.placeOf s.disk.here (inside job.directory outputName) = p)
    {r : Except Error Unit} (h : Runs (runCompiler tools job) s r t) :
    t.disk.IsTree ∧ Disk.Confined (fun q => q = p) ways s.disk t.disk ∧
      (t.disk.node? p = some .directory → t.disk = s.disk) := by
  have hsame : ∀ {u : State}, u.disk = s.disk → u.disk.IsTree ∧
      Disk.Confined (fun q => q = p) ways s.disk u.disk ∧
      (u.disk.node? p = some .directory → u.disk = s.disk) := by
    intro u hu
    rw [hu]
    exact ⟨htree, .refl _, fun _ => rfl⟩
  unfold runCompiler at h
  rw [runs_bind_of_ok (runs_record.mpr ⟨rfl, rfl⟩)] at h
  split at h
  · exact hsame (by rw [(runs_pure.mp h).2])
  · rcases disk_onDisk h with he | hw
    · exact hsame he
    · have hnode := Disk.node?_of_read (Disk.read_write hw)
      rw [(Disk.extends_write hw).here, show Disk.placeOf _ _ = p from hp] at hnode
      refine ⟨htree.write hw, Disk.confined_write hw hp, fun hdir => ?_⟩
      rw [hnode] at hdir
      cases hdir
  · rw [runs_log_bind, runs_throw] at h
    exact hsame (by rw [h.2])
  · exact hsame (by rw [(runs_throw.mp h).2])

theorem runs_runCompiler_extends {job : CompileJob} (h : Runs (runCompiler tools job) s (.ok ()) t) :
    Disk.Extends s.disk t.disk := by
  unfold runCompiler at h
  rw [runs_bind_of_ok (runs_record.mpr ⟨rfl, rfl⟩)] at h
  split at h
  · rw [(runs_pure.mp h).2]
    exact .refl _
  · obtain ⟨disk, hw, rfl⟩ := runs_onDisk_ok.mp h
    exact Disk.extends_write hw
  · rw [runs_log_bind, runs_throw] at h
    cases h.1
  · cases (runs_throw.mp h).1

/-- A compilation with a file as its output leaves a tree, and all directories that were there. -/
theorem runs_compile_extends {target : Path} {bytes : List UInt8} (hs : source.IsNormal)
    (hd : directory.IsNormal) (htree : s.disk.IsTree)
    (h : Runs (compile tools source directory compiler remappings optimize) s (.ok target) t)
    (hfile : t.disk.node? (Disk.placeOf s.disk.here (toString directory) ++ [source.stem ++ ".json"]) =
      some (.file bytes)) : t.disk.IsTree ∧ Disk.Extends s.disk t.disk := by
  unfold compile at h
  obtain ⟨_, u, hdirs, h⟩ := runs_bind_ok.mp h
  obtain ⟨_, v, hcomp, h⟩ := runs_bind_ok.mp h
  rw [runs_log_bind] at h
  obtain ⟨_, w, hmove, h⟩ := runs_bind_ok.mp h
  obtain ⟨-, ht⟩ := runs_pure.mp h
  have hmade : u.disk.IsTree := disk_ensureDirectories hdirs ▸ htree.ensureDirectories directory
  obtain ⟨made, hg, hu⟩ := runs_ensureDirectories_ok hdirs
  have hextends : Disk.Extends s.disk v.disk :=
    (hu ▸ hg.extends : Disk.Extends s.disk u.disk).trans (runs_runCompiler_extends hcomp)
  obtain ⟨hvtree, -⟩ := runs_runCompiler_footprint _ (fun _ => False) hmade rfl hcomp
  obtain ⟨disk, hm, hdisk⟩ := runs_rename_ok hmove
  replace hdisk : t.disk = disk := by rw [ht, hdisk]
  have hsource : Disk.placeOf v.disk.here (toString (directory.join outputName)) =
      Disk.placeOf s.disk.here (toString directory) ++ [outputName] := by
    rw [placeOf_output hd, hextends.here]
  have htarget : Disk.placeOf v.disk.here (toString (directory.join (source.stem ++ ".json"))) =
      Disk.placeOf s.disk.here (toString directory) ++ [source.stem ++ ".json"] := by
    rw [← hextends.here]
    exact placeOf_outputPath hs hd v.disk.here
  -- what came to the new place is a file, so a file was moved
  obtain ⟨-, hmoved⟩ := Disk.node?_move hm (by rw [hsource]; simp) (by rw [htarget]; simp)
  rw [hsource, htarget, ← hdisk, hfile] at hmoved
  obtain ⟨htree', hkept, -⟩ := hvtree.move_file hm hsource htarget hmoved.symm
  rw [hdisk]
  exact ⟨htree', hextends.trans hkept⟩

theorem disk_rename {source target : Path} {r : Except Error Unit}
    (h : Runs (rename source target) s r t) :
    t.disk = s.disk ∨ s.disk.move (toString source) (toString target) = .ok t.disk := by
  unfold rename at h
  rcases runs_tryCatch.mp h with ⟨_, h, -⟩ | ⟨e, u, h, h'⟩
  · exact disk_onDisk h
  · have hu : t.disk = u.disk := by
      split at h'
      · rw [runs_log_bind, runs_throw] at h'
        rw [h'.2]
      · rw [(runs_throw.mp h').2]
    rw [hu]
    exact disk_onDisk h

/-- A compilation makes its directory, runs the compiler and moves what that has left, and stops at the
first of these that fails. -/
theorem disk_compile {r : Except Error Path}
    (h : Runs (compile tools source directory compiler remappings optimize) s r t) :
    ∃ u, u.disk = (s.disk.ensureDirectories directory).1 ∧ (t.disk = u.disk ∨ ∃ r' v,
      Runs (runCompiler tools (jobFor source directory compiler remappings optimize)) u r' v ∧
      (t.disk = v.disk ∨ v.disk.move (toString (directory.join outputName))
        (toString (outputPath source directory)) = .ok t.disk)) := by
  unfold compile at h
  rcases runs_bind.mp h with ⟨e, hdirs, -⟩ | ⟨_, u, hdirs, h⟩
  · exact ⟨t, disk_ensureDirectories hdirs, .inl rfl⟩
  refine ⟨u, disk_ensureDirectories hdirs, .inr ?_⟩
  rcases runs_bind.mp h with ⟨e, hcomp, -⟩ | ⟨_, v, hcomp, h⟩
  · exact ⟨_, t, hcomp, .inl rfl⟩
  refine ⟨_, v, hcomp, ?_⟩
  rw [runs_log_bind] at h
  rcases runs_bind.mp h with ⟨e, hmove, -⟩ | ⟨_, w, hmove, h⟩
  · have hdisk := disk_rename hmove
    exact hdisk
  · have hdisk := disk_rename hmove
    rw [(runs_pure.mp h).2]
    exact hdisk

theorem runs_compile_footprint (hs : source.IsNormal) (hd : directory.IsNormal)
    (htree : s.disk.IsTree) {r : Except Error Path}
    (h : Runs (compile tools source directory compiler remappings optimize) s r t) :
    Footprint (Disk.placeOf s.disk.here (toString directory)) source.stem
      (directory.OnWay s.disk.here) s.disk t.disk := by
  let ways := directory.OnWay s.disk.here
  obtain ⟨u, hmade, hrest⟩ := disk_compile h
  have hu : ∀ places, Disk.Confined places ways s.disk u.disk := by
    intro places
    rw [hmade]
    exact Disk.confined_ensureDirectories hd s.disk
  have hutree : u.disk.IsTree := hmade ▸ htree.ensureDirectories directory
  rcases hrest with ht | ⟨r', v, hcomp, hrest⟩
  · rw [ht]
    exact .inl (hu _)
  let job := jobFor source directory compiler remappings optimize
  have hplace : Disk.placeOf u.disk.here (inside job.directory outputName) =
      Disk.placeOf s.disk.here (toString directory) ++ [outputName] := by
    rw [show job.directory = toString directory from rfl, placeOf_inside_output,
      (hu fun _ => False).here]
  obtain ⟨hvtree, hconf, hdir⟩ := runs_runCompiler_footprint job ways hutree hplace hcomp
  let places : Place → Prop := fun p =>
    p = Disk.placeOf s.disk.here (toString directory) ++ [outputName] ∨
      p = Disk.placeOf s.disk.here (toString directory) ++ [source.stem ++ ".json"]
  have hv : Disk.Confined places ways s.disk v.disk :=
    (hu _).trans (hconf.mono (fun _ => .inl) fun _ => id)
  rcases hrest with ht | hm
  · rw [ht]
    exact .inl hv
  · have hsource := placeOf_output hd v.disk.here
    have htarget := placeOf_outputPath hs hd v.disk.here
    rw [hv.here] at hsource htarget
    rcases hvtree.move places ways hm (hv.here.symm ▸ hsource) (hv.here.symm ▸ htarget) (.inl rfl)
      (.inr rfl) with hmoved | ⟨hn, hmoved⟩
    · exact .inl (hv.trans hmoved)
    · -- a directory in the place of the output was there before the compiler ran
      have hsame := hdir hn
      rw [hsame] at hn hmoved
      exact .inr ⟨u.disk, hu _, hn, hmoved⟩

/-- A place that lies neither at nor below the output, under its old and its new name, is as before,
or a new directory on the way. -/
theorem Footprint.elsewhere {out p : Place} {stem : String} {ways : Place → Prop}
    {before after : Disk} (h : Footprint out stem ways before after)
    (hs : ¬out ++ [outputName] <+: p) (ht : ¬out ++ [stem ++ ".json"] <+: p) :
    after.node? p = before.node? p ∨
      (ways p ∧ before.node? p = none ∧ after.node? p = some .directory) := by
  rcases h with h | ⟨made, h, -, hmoved⟩
  · apply h.nodes p
    rintro (rfl | rfl)
    · exact hs List.prefix_rfl
    · exact ht List.prefix_rfl
  · rw [hmoved.others p hs ht]
    exact h.nodes p id

end ContractBindings.Compilation
