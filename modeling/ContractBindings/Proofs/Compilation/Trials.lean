import ContractBindings.Proofs.Compilation

/-!
# Compilations one after the other

A compilation makes its directory, lets the compiler write its output, and
changes the name of that, and it stops at the first of these that fails
(`course`). So what it returns is the output of its own compiler, and what was
there under that name is replaced by nothing else. Over a sequence of
compilations each file keeps an origin: it was there at the start, or one of
the compilers wrote it (`InTurn.origin`).
-/

namespace ContractBindings.Compilation

open Session Files

variable {s t : State}

/-! ## Stages that fail -/

theorem runs_onDisk_error {work : Disk → Except Failure Disk} {e : Error}
    (h : Runs (onDisk work) s (.error e) t) : t = s := by
  unfold onDisk at h
  rw [runs_get_bind] at h
  rcases runs_bind.mp h with ⟨e', h, -⟩ | ⟨disk, u, -, h⟩
  · exact (runs_ofExcept.mp h).2
  · cases (runs_modify.mp h).1

theorem runs_runCompiler_error {tools : Toolchain} {job : CompileJob} {e : Error}
    (h : Runs (runCompiler tools job) s (.error e) t) : t.disk = s.disk := by
  unfold runCompiler at h
  rw [runs_bind_of_ok (runs_record.mpr ⟨rfl, rfl⟩)] at h
  split at h
  · cases (runs_pure.mp h).1
  · rw [runs_onDisk_error h]
  · rw [runs_log_bind, runs_throw] at h
    rw [h.2]
  · rw [(runs_throw.mp h).2]

theorem runs_rename_error {source target : Path} {e : Error}
    (h : Runs (rename source target) s (.error e) t) : t.disk = s.disk := by
  unfold rename at h
  rcases runs_tryCatch.mp h with ⟨_, -, h⟩ | ⟨e', u, h, h'⟩
  · cases h
  · have hu := runs_onDisk_error h
    subst hu
    split at h'
    · rw [runs_log_bind, runs_throw] at h'
      rw [h'.2]
    · rw [(runs_throw.mp h').2]

/-! ## One compilation -/

structure Trial where
  tools : Toolchain
  source : String
  directory : String
  compiler : String
  remappings : List String
  optimize : Bool
  before : State
  result : Except Error Path
  after : State
  runs : Runs (compile tools (.ofString source) (.ofString directory) compiler remappings optimize)
    before result after

namespace Trial

variable (c : Trial)

def sourcePath : Path := .ofString c.source

def directoryPath : Path := .ofString c.directory

def stem : String := c.sourcePath.stem

def job : CompileJob := jobFor c.sourcePath c.directoryPath c.compiler c.remappings c.optimize

def output : Except Error (Option (List UInt8)) := c.tools.compile c.job

/-- A compiler that returns has written its output. -/
def Writes : Prop := c.output ≠ .ok none

def out : Place := Disk.placeOf c.before.disk.here (toString c.directoryPath)

def outputPlace : Place := c.out ++ [outputName]

def jsonPlace : Place := c.out ++ [c.stem ++ ".json"]

def made : Disk := (c.before.disk.ensureDirectories c.directoryPath).1

def Leaves (bytes : List UInt8) (disk : Disk) : Prop :=
  c.made.write (inside (toString c.directoryPath) outputName) bytes = .ok disk

def Renames (disk disk' : Disk) : Prop :=
  disk.move (toString (c.directoryPath.join outputName))
    (toString (outputPath c.sourcePath c.directoryPath)) = .ok disk'

def Reaches (v : State) : Prop :=
  ∃ u, Runs (ensureDirectories c.directoryPath) c.before (.ok ()) u ∧
    Runs (runCompiler c.tools c.job) u (.ok ()) v

/-- How far a compilation comes, and what it leaves on the disk. -/
inductive Course (c : Trial) : Prop
  | stopped {e : Error} (unreached : ∀ v, ¬c.Reaches v) (result : c.result = .error e)
    (disk : c.after.disk = c.made)
  | unnamed {v : State} {e : Error} {bytes : List UInt8} (reached : c.Reaches v)
    (output : c.output = .ok (some bytes)) (written : c.Leaves bytes c.after.disk)
    (result : c.result = .error e)
  | named {bytes : List UInt8} {disk : Disk} (output : c.output = .ok (some bytes))
    (written : c.Leaves bytes disk) (renamed : c.Renames disk c.after.disk)
    (result : c.result = .ok (outputPath c.sourcePath c.directoryPath))

variable {c}

theorem isNormal_sourcePath : c.sourcePath.IsNormal := Path.isNormal_ofString _

theorem isNormal_directoryPath : c.directoryPath.IsNormal := Path.isNormal_ofString _

theorem course (hw : c.Writes) : c.Course := by
  have h := c.runs
  unfold compile at h
  rcases runs_bind.mp h with ⟨e, hdirs, hr⟩ | ⟨_, u, hdirs, h⟩
  · have hmade := disk_ensureDirectories hdirs
    refine .stopped ?_ hr hmade
    rintro v ⟨u, hdirs', -⟩
    cases (runs_unique hdirs' hdirs).1
  have hmade := disk_ensureDirectories hdirs
  rcases runs_bind.mp h with ⟨e, hcomp, hr⟩ | ⟨_, v, hcomp, h⟩
  · refine .stopped ?_ hr ((runs_runCompiler_error hcomp).trans hmade)
    rintro v ⟨u', hdirs', hcomp'⟩
    obtain ⟨-, rfl⟩ := runs_unique hdirs' hdirs
    cases (runs_unique hcomp' hcomp).1
  obtain ⟨written, hout⟩ := runs_runCompiler_answered _ hcomp
  cases written with
  | none => exact absurd hout hw
  | some bytes =>
    have hwrite := runs_runCompiler_written _ hout hcomp
    rw [hmade] at hwrite
    rw [runs_log_bind] at h
    rcases runs_bind.mp h with ⟨e, hmove, hr⟩ | ⟨_, w, hmove, h⟩
    · have hdisk := runs_rename_error hmove
      rw [← show c.after.disk = v.disk from hdisk] at hwrite
      exact .unnamed ⟨u, hdirs, hcomp⟩ hout hwrite hr
    · obtain ⟨disk, hm, hdisk⟩ := runs_rename_ok hmove
      obtain ⟨hr, ht⟩ := runs_pure.mp h
      have hafter : c.after.disk = disk := by rw [ht, hdisk]
      exact .named hout hwrite (hafter ▸ hm) hr

/-! ### What each operation leaves -/

theorem made_here : c.made.here = c.before.disk.here :=
  (Disk.grows_ensureDirectories _ _).here

theorem confined_made (places : Place → Prop) :
    Disk.Confined places (c.directoryPath.OnWay c.before.disk.here) c.before.disk c.made :=
  Disk.confined_ensureDirectories isNormal_directoryPath _

theorem isTree_made (htree : c.before.disk.IsTree) : c.made.IsTree :=
  htree.ensureDirectories c.directoryPath

theorem placeOf_written {here : Place} (hh : here = c.before.disk.here) :
    Disk.placeOf here (inside (toString c.directoryPath) outputName) = c.outputPlace := by
  rw [placeOf_inside_output, hh]
  rfl

theorem placeOf_source {here : Place} (hh : here = c.before.disk.here) :
    Disk.placeOf here (toString (c.directoryPath.join outputName)) = c.outputPlace := by
  rw [placeOf_output isNormal_directoryPath, hh]
  rfl

theorem placeOf_target {here : Place} (hh : here = c.before.disk.here) :
    Disk.placeOf here (toString (outputPath c.sourcePath c.directoryPath)) = c.jsonPlace := by
  rw [placeOf_outputPath isNormal_sourcePath isNormal_directoryPath, hh]
  rfl

theorem outputPlace_ne_jsonPlace (hstem : c.stem ≠ "combined") : c.outputPlace ≠ c.jsonPlace := by
  intro h
  have hname : "combined" ++ ".json" = c.stem ++ ".json" := by
    simpa [outputPlace, jsonPlace, outputName] using h
  exact hstem ((String.append_left_inj ".json").mp hname).symm

section
variable {bytes : List UInt8} {disk after : Disk} (hw : c.Leaves bytes disk)
include hw

theorem here_written : disk.here = c.before.disk.here :=
  (Disk.extends_write hw).here.trans made_here

theorem node?_written : disk.node? c.outputPlace = some (.file bytes) := by
  have hread := Disk.node?_of_read (Disk.read_write hw)
  rwa [placeOf_written (here_written hw)] at hread

theorem confined_written : Disk.Confined (fun p => p = c.outputPlace)
    (c.directoryPath.OnWay c.before.disk.here) c.before.disk disk :=
  (confined_made _).trans (Disk.confined_write hw (placeOf_written made_here))

variable (hm : c.Renames disk after)
include hm

/-- A file that is moved leaves the places other than its old and its new one. -/
theorem confined_moved (htree : c.before.disk.IsTree) :
    Disk.Confined (fun p => p = c.outputPlace ∨ p = c.jsonPlace)
      (c.directoryPath.OnWay c.before.disk.here) c.before.disk after := by
  have hh := here_written hw
  rcases ((isTree_made htree).write hw).move (fun p => p = c.outputPlace ∨ p = c.jsonPlace)
    (c.directoryPath.OnWay c.before.disk.here) hm (placeOf_source hh) (placeOf_target hh) (.inl rfl)
    (.inr rfl) with hmoved | ⟨hdir, -⟩
  · exact ((confined_written hw).mono (fun _ => .inl) fun _ => id).trans hmoved
  · rw [show c.out ++ [outputName] = c.outputPlace from rfl, node?_written hw] at hdir
    cases hdir

theorem node?_moved : after.node? c.jsonPlace = some (.file bytes) := by
  have hh := here_written hw
  obtain ⟨-, hn⟩ := Disk.node?_move hm (by rw [placeOf_source hh]; simp [outputPlace])
    (by rw [placeOf_target hh]; simp [jsonPlace])
  rw [placeOf_source hh, placeOf_target hh] at hn
  rw [hn, node?_written hw]

theorem isTree_moved (htree : c.before.disk.IsTree) :
    after.IsTree ∧ Disk.Extends disk after ∧
      (c.outputPlace ≠ c.jsonPlace → after.node? c.outputPlace = none) := by
  have hh := here_written hw
  obtain ⟨htree', hextends, hgone⟩ := ((isTree_made htree).write hw).move_file hm (placeOf_source hh)
    (placeOf_target hh) (node?_written hw)
  refine ⟨htree', hextends, fun hne => hgone fun he => hne ?_⟩
  rw [outputPlace, jsonPlace, he]

end

/-! ### What a compilation leaves -/

theorem confined (hw : c.Writes) (htree : c.before.disk.IsTree) :
    Disk.Confined (fun p => p = c.outputPlace ∨ p = c.jsonPlace)
      (c.directoryPath.OnWay c.before.disk.here) c.before.disk c.after.disk := by
  cases course hw with
  | stopped _ _ hdisk =>
    rw [hdisk]
    exact confined_made _
  | unnamed _ _ hwrite => exact (confined_written hwrite).mono (fun _ => .inl) fun _ => id
  | named _ hwrite hm => exact confined_moved hwrite hm htree

theorem isTree_after (hw : c.Writes) (htree : c.before.disk.IsTree) : c.after.disk.IsTree := by
  cases course hw with
  | stopped _ _ hdisk =>
    rw [hdisk]
    exact isTree_made htree
  | unnamed _ _ hwrite => exact (isTree_made htree).write hwrite
  | named _ hwrite hm => exact (isTree_moved hwrite hm htree).1

theorem confined_error (hw : c.Writes) {e : Error} (he : c.result = .error e) :
    Disk.Confined (fun p => p = c.outputPlace) (c.directoryPath.OnWay c.before.disk.here)
      c.before.disk c.after.disk := by
  cases course hw with
  | stopped _ _ hdisk =>
    rw [hdisk]
    exact confined_made _
  | unnamed _ _ hwrite => exact confined_written hwrite
  | named _ _ _ hresult => cases he.symm.trans hresult

/-- Each file after a compilation was there before it, or the compiler has written it. -/
theorem origin (hw : c.Writes) (htree : c.before.disk.IsTree) {p : Place} {bytes : List UInt8}
    (hn : c.after.disk.node? p = some (.file bytes)) :
    c.before.disk.node? p = some (.file bytes) ∨ c.output = .ok (some bytes) := by
  cases course hw with
  | stopped _ _ hdisk =>
    rw [hdisk] at hn
    exact .inl ((confined_made fun _ => False).file id hn)
  | unnamed _ hout hwrite =>
    by_cases hp : p = c.outputPlace
    · rw [hp, node?_written hwrite] at hn
      cases hn
      exact .inr hout
    · exact .inl ((confined_written hwrite).file hp hn)
  | named hout hwrite hm =>
    by_cases hjson : p = c.jsonPlace
    · rw [hjson, node?_moved hwrite hm] at hn
      cases hn
      exact .inr hout
    by_cases houtput : p = c.outputPlace
    · -- the output has left its old place
      rw [houtput, (isTree_moved hwrite hm htree).2.2 (houtput ▸ hjson)] at hn
      cases hn
    · exact .inl ((confined_moved hwrite hm htree).file (by simp [hjson, houtput]) hn)

/-- A place at or below the one where the output belongs lies on the way to the directory only if that
way goes up again. -/
theorem up_of_onWay {p : Place} (hp : c.jsonPlace <+: p)
    (hway : c.directoryPath.OnWay c.before.disk.here p) : ".." ∈ c.directoryPath.components := by
  by_contra hup
  have hout : p <+: c.out := hway.prefix isNormal_directoryPath hup
  have hlength := (hp.trans hout).length_le
  rw [jsonPlace, List.length_append, List.length_singleton] at hlength
  omega

/-- A compilation loses no output: neither the one that it returns, nor the one that was there before a
failure, nor one that could not be given its name. A failure before that leaves all that was there. -/
structure LosesNothing (c : Trial) : Prop where
  returned : ∀ p, c.result = .ok p → p = outputPath c.sourcePath c.directoryPath ∧
    ∃ bytes, c.output = .ok (some bytes) ∧ c.after.disk.read (toString p) = .ok bytes ∧
      (c.stem ≠ "combined" → c.after.disk.node? c.outputPlace = none)
  raised : ∀ e, c.result = .error e → c.stem ≠ "combined" → ∀ p, c.jsonPlace <+: p →
    c.after.disk.node? p = c.before.disk.node? p ∨ (".." ∈ c.directoryPath.components ∧
      c.directoryPath.OnWay c.before.disk.here p ∧ c.before.disk.node? p = none ∧
      c.after.disk.node? p = some .directory)
  unnamed : ∀ e v, c.result = .error e → c.Reaches v →
    ∃ bytes, c.output = .ok (some bytes) ∧ c.after.disk.node? c.outputPlace = some (.file bytes)
  stopped : ∀ e, c.result = .error e → (∀ v, ¬c.Reaches v) → Disk.Grows c.before.disk c.after.disk
  others : ∀ p n, c.before.disk.node? p = some n → p ≠ c.outputPlace → p ≠ c.jsonPlace →
    c.after.disk.node? p = some n

theorem losesNothing (hw : c.Writes) (htree : c.before.disk.IsTree) : c.LosesNothing where
  returned p hp := by
    cases course hw with
    | stopped _ hresult => cases hp.symm.trans hresult
    | unnamed _ _ _ hresult => cases hp.symm.trans hresult
    | @named bytes disk hout hwrite hm hresult =>
      have hpath := Except.ok.inj (hp.symm.trans hresult)
      have hh := here_written hwrite
      obtain ⟨-, hextends, hgone⟩ := isTree_moved hwrite hm htree
      have hmoved := node?_moved hwrite hm
      rw [← placeOf_target hh] at hmoved
      refine ⟨hpath, bytes, hout, ?_, fun hstem => hgone (outputPlace_ne_jsonPlace hstem)⟩
      rw [hpath]
      exact Disk.read_move hm hextends hmoved
  raised e he hstem p hp := by
    have hne : p ≠ c.outputPlace := by
      rintro rfl
      exact Disk.not_prefix_of_ne (outputPlace_ne_jsonPlace hstem).symm hp
    rcases (confined_error hw he).nodes p hne with hsame | ⟨hway, hnone, hdir⟩
    · exact .inl hsame
    · exact .inr ⟨up_of_onWay hp hway, hway, hnone, hdir⟩
  unnamed e v he hv := by
    cases course hw with
    | stopped hunreached => exact absurd hv (hunreached v)
    | @unnamed _ _ bytes _ hout hwrite => exact ⟨bytes, hout, node?_written hwrite⟩
    | named _ _ _ hresult => cases he.symm.trans hresult
  stopped e he hv := by
    cases course hw with
    | stopped _ _ hdisk =>
      rw [hdisk]
      exact Disk.grows_ensureDirectories _ _
    | unnamed hreached => exact absurd hreached (hv _)
    | named _ _ _ hresult => cases he.symm.trans hresult
  others p n hn hout hjson := (confined hw htree).kept (by simp [hout, hjson]) hn

end Trial

/-! ## Compilations in turn -/

inductive InTurn : Disk → List Trial → Disk → Prop
  | nil (d : Disk) : InTurn d [] d
  | cons {d d' : Disk} {c : Trial} {trials : List Trial} (start : c.before.disk = d)
      (rest : InTurn c.after.disk trials d') : InTurn d (c :: trials) d'

variable {d d' : Disk} {trials : List Trial}

theorem InTurn.here (h : InTurn d trials d') :
    d.IsTree → (∀ c ∈ trials, c.Writes) → d'.here = d.here := by
  induction h with
  | nil => exact fun _ _ => rfl
  | @cons d d' c trials start _ ih =>
    subst start
    intro htree hw
    have hc := hw c List.mem_cons_self
    rw [ih (c.isTree_after hc htree) fun c' hc' => hw c' (List.mem_cons_of_mem c hc'),
      (c.confined hc htree).here]

theorem InTurn.losesNothing (h : InTurn d trials d') :
    d.IsTree → (∀ c ∈ trials, c.Writes) → ∀ c ∈ trials, c.LosesNothing := by
  induction h with
  | nil => exact fun _ _ _ hc => (List.not_mem_nil hc).elim
  | @cons d d' c trials start _ ih =>
    subst start
    intro htree hw c' hc'
    have hc := hw c List.mem_cons_self
    rcases List.mem_cons.mp hc' with rfl | hc'
    · exact Trial.losesNothing hc htree
    · exact ih (Trial.isTree_after hc htree) (fun c' hc' => hw c' (List.mem_cons_of_mem c hc')) c' hc'

/-- Each file after compilations in turn was there before them, or one of their compilers has written
it. -/
theorem InTurn.origin (h : InTurn d trials d') {p : Place} {bytes : List UInt8}
    (hn : d'.node? p = some (.file bytes)) : d.IsTree → (∀ c ∈ trials, c.Writes) →
      d.node? p = some (.file bytes) ∨ ∃ c ∈ trials, c.output = .ok (some bytes) := by
  induction h with
  | nil => exact fun _ _ => .inl hn
  | @cons d d' c trials start _ ih =>
    subst start
    intro htree hw
    have hc := hw c List.mem_cons_self
    rcases ih hn (Trial.isTree_after hc htree) fun c' hc' => hw c' (List.mem_cons_of_mem c hc') with
      hn | ⟨c', hc', hout⟩
    · rcases Trial.origin hc htree hn with hn | hout
      · exact .inl hn
      · exact .inr ⟨c, List.mem_cons_self, hout⟩
    · exact .inr ⟨c', List.mem_cons_of_mem c hc', hout⟩

/-- Compilations in turn, before and from one of them on. -/
theorem InTurn.split {front later : List Trial} {c : Trial} :
    ∀ {d : Disk}, InTurn d (front ++ c :: later) d' → d.IsTree → (∀ c' ∈ front, c'.Writes) →
      c.before.disk.IsTree ∧ InTurn c.after.disk later d' := by
  induction front with
  | nil =>
    rintro d (_ | ⟨start, rest⟩) htree _
    exact ⟨start ▸ htree, rest⟩
  | cons c' front ih =>
    rintro d (_ | ⟨start, rest⟩) htree hw
    subst start
    exact ih rest (Trial.isTree_after (hw c' List.mem_cons_self) htree)
      fun c hc => hw c (List.mem_cons_of_mem c' hc)

/-- What is under a path that a compilation has returned comes from its own compiler, or from that of a
later compilation. -/
theorem InTurn.returned_origin {front later : List Trial} {c : Trial}
    (h : InTurn d (front ++ c :: later) d') (htree : d.IsTree)
    (hw : ∀ c' ∈ front ++ c :: later, c'.Writes) {p : Path} (hp : c.result = .ok p)
    {bytes : List UInt8} (hn : d'.node? (Disk.placeOf d'.here (toString p)) = some (.file bytes)) :
    ∃ c' ∈ c :: later, c'.output = .ok (some bytes) := by
  have hc : c.Writes := hw c (by simp)
  have hlater : ∀ c' ∈ later, c'.Writes := fun c' hc' => hw c' (by simp [hc'])
  obtain ⟨hbefore, hrest⟩ := h.split htree fun c' hc' => hw c' (by simp [hc'])
  have hafter := Trial.isTree_after hc hbefore
  rcases hrest.origin hn hafter hlater with hn | ⟨c', hc', hout⟩
  · obtain ⟨-, own, hout, hread, -⟩ := (Trial.losesNothing hc hbefore).returned p hp
    have hown := Disk.node?_of_read hread
    rw [← hrest.here hafter hlater, hn] at hown
    cases hown
    exact ⟨c, List.mem_cons_self, hout⟩
  · exact ⟨c', List.mem_cons_of_mem c hc', hout⟩

/-- **No compilation loses an output.** Each one of a sequence leaves what its compiler wrote under the
path that it returns, and in case of a failure leaves what was there; and whatever is under that path
later, no compiler before has written it. -/
theorem compile_loses_nothing (h : InTurn d trials d') (htree : d.IsTree)
    (hw : ∀ c ∈ trials, c.Writes) :
    (∀ c ∈ trials, c.LosesNothing) ∧ ∀ front c later p bytes, trials = front ++ c :: later →
      c.result = .ok p → d'.node? (Disk.placeOf d'.here (toString p)) = some (.file bytes) →
        ∃ c' ∈ c :: later, c'.output = .ok (some bytes) := by
  refine ⟨h.losesNothing htree hw, ?_⟩
  rintro front c later p bytes rfl hp hn
  exact h.returned_origin htree hw hp hn

/-! Three compilations in turn: over the name for the first output there is a directory, the second
one gives its output the name, and the third one fails. -/

def Trial.ofOutput (output : Except Error (Option (List UInt8))) (source directory : String)
    (disk : Disk) : Trial :=
  let tools : Toolchain := {
    onPath := fun _ => none
    install := fun _ => .ok ()
    executable := fun _ => .error (.notInstalled "no solc installed")
    compile := fun _ => output }
  let run := (compile tools (.ofString source) (.ofString directory) "solc" [] false).run.run { disk }
  { tools, source, directory, compiler := "solc", remappings := [], optimize := false,
    before := { disk }, result := run.1, after := run.2, runs := rfl }

theorem Trial.writes_ofOutput {output : Except Error (Option (List UInt8))} (h : output ≠ .ok none)
    (source directory : String) (disk : Disk) : (ofOutput output source directory disk).Writes := h

def shelf : Disk where
  nodes := [(["work"], .directory), (["work", "out"], .directory),
    (["work", "out", "Vault.json"], .directory), (["work", "out", "Bank.json"], .file [0])]
  here := ["work"]

def blocked : Trial := .ofOutput (.ok (some [1])) "Vault.sol" "out" shelf

def renamed : Trial := .ofOutput (.ok (some [2])) "Bank.sol" "out" blocked.after.disk

def crashed : Trial := .ofOutput (.error (.system "out of memory")) "Bank.sol" "out" renamed.after.disk

theorem compile_loses_nothing_bank :
    InTurn shelf [blocked, renamed, crashed] crashed.after.disk ∧ shelf.IsTree ∧
    (∀ c ∈ [blocked, renamed, crashed], c.Writes) ∧
    (∀ c ∈ [blocked, renamed, crashed], c.LosesNothing) ∧
    (∃ p, renamed.result = .ok p ∧ ∃ bytes,
      crashed.after.disk.node? (Disk.placeOf crashed.after.disk.here (toString p)) =
        some (.file bytes) ∧ ∃ c ∈ [renamed, crashed], c.output = .ok (some bytes)) := by
  have hturn : InTurn shelf [blocked, renamed, crashed] crashed.after.disk :=
    .cons rfl (.cons rfl (.cons rfl (.nil _)))
  have htree : shelf.IsTree := Disk.isTree_of_nodes (by decide) (by decide)
  have hw : ∀ c ∈ [blocked, renamed, crashed], c.Writes := by
    intro c hc
    rcases List.mem_cons.mp hc with rfl | hc
    · exact Trial.writes_ofOutput (by simp) _ _ _
    rcases List.mem_pair.mp hc with rfl | rfl
    · exact Trial.writes_ofOutput (by simp) _ _ _
    · exact Trial.writes_ofOutput (by simp) _ _ _
  obtain ⟨hnothing, horigin⟩ := compile_loses_nothing hturn htree hw
  have hresult : renamed.result = .ok (outputPath (.ofString "Bank.sol") (.ofString "out")) := by
    decide +kernel
  have hfile : crashed.after.disk.node? (Disk.placeOf crashed.after.disk.here
      (toString (outputPath (.ofString "Bank.sol") (.ofString "out")))) = some (.file [2]) := by
    decide +kernel
  exact ⟨hturn, htree, hw, hnothing, _, hresult, _, hfile,
    horigin [blocked] renamed [crashed] _ _ rfl hresult hfile⟩

/-! The way to the directory leads over the place of the output. -/

def ascending : Trial :=
  .ofOutput (.error (.system "out of memory")) "Vault.sol" "Vault.json/.."
    { nodes := [(["work"], .directory)], here := ["work"] }

/-- A compilation that fails may have made a directory where its output belongs. -/
theorem compile_makes_directory :
    ascending.Writes ∧ ascending.before.disk.IsTree ∧ ascending.stem ≠ "combined" ∧
      (∃ e, ascending.result = .error e) ∧ ascending.before.disk.node? ascending.jsonPlace = none ∧
      ascending.after.disk.node? ascending.jsonPlace = some .directory :=
  ⟨Trial.writes_ofOutput (by simp) _ _ _, Disk.isTree_of_nodes (by decide) (by decide),
    by decide +kernel, ⟨.system "out of memory", by decide +kernel⟩, by decide +kernel,
    by decide +kernel⟩

end ContractBindings.Compilation
