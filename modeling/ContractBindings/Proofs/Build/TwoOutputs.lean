import ContractBindings.Proofs.Build.Footprint
import ContractBindings.Proofs.Deployment.Replay
import ContractBindings.Proofs.Files.Twins

/-!
# Builds on two outputs of the compiler

If the contracts to deploy are the same in two outputs of the compiler, a
build cannot tell which one of them the compiler wrote: it comes to the same
outcome by the same calls, and what it leaves is the same but for the output
itself.
-/

namespace ContractBindings

open Session Files

def Toolchain.writing (tools : Toolchain) (output : List UInt8) : Toolchain :=
  { tools with compile := fun _ => .ok (some output) }

section
variable {home : Place} {places : Place → Prop} {text text' : List UInt8} {start start' : State}

abbrev AlikeTwins (home : Place) (places : Place → Prop) (text text' : List UInt8) :
    State → State → State → State → Prop :=
  Alike (Disk.Twins home places text text')

/-! ## Files -/

theorem parallel_ofFiles {α β : Type} {R : State → State → Prop} {Q : α → β → Prop}
    {o : Except Failure α} {o' : Except Failure β} (h : Together Q o o') :
    Parallel R Q (ofFiles o) (ofFiles o') :=
  parallel_ofExcept (h.mapError _)

theorem parallel_onDisk {work work' : Disk → Except Failure Disk}
    (h : ∀ d d', Disk.Twins home places text text' d d' →
      Together (Disk.Twins home places text text') (work d) (work' d')) :
    Parallel (AlikeTwins home places text text' start start') Eq (onDisk work) (onDisk work') := by
  unfold onDisk
  apply parallel_get_bind
  intro s s' hs
  apply parallel_bind (parallel_ofFiles (h _ _ hs.disk))
  intro d d' hd
  exact parallel_modify fun _ _ h => { h with disk := hd }

theorem parallel_ensureDirectories (p : Path) :
    Parallel (AlikeTwins home places text text' start start') Eq (ensureDirectories p)
      (ensureDirectories p) := by
  unfold Session.ensureDirectories
  apply parallel_get_bind
  intro s s' hs
  obtain ⟨hd, ho⟩ := hs.disk.ensureDirectories p
  apply parallel_then (parallel_modify fun _ _ h => { h with disk := hd })
  intro _
  have hsame := together_refl (P := Eq) (fun _ => rfl) (s.disk.ensureDirectories p).2
  exact parallel_ofFiles (ho.symm ▸ hsame)

theorem parallel_writeText (path content : String) :
    Parallel (AlikeTwins home places text text' start start') Eq (writeText path content)
      (writeText path content) :=
  parallel_onDisk fun _ _ h => h.write (.same _)

/-- What is read is the same, or else it is what the two texts say. -/
theorem parallel_readJson {combined combined' : Json} (hfile : IsJsonFile text combined)
    (hfile' : IsJsonFile text' combined') (path : String) :
    Parallel (AlikeTwins home places text text' start start')
      (fun v v' => v' = v ∨ (v = combined ∧ v' = combined')) (readJson path) (readJson path) := by
  obtain ⟨cs, hcs, hv⟩ := hfile
  obtain ⟨cs', hcs', hv'⟩ := hfile'
  unfold readJson readText
  apply parallel_bind (P := fun xs xs' => xs' = xs ∨
    (xs = Text.unifyLineEnds cs ∧ xs' = Text.unifyLineEnds cs'))
  · apply parallel_bind parallel_get
    intro s s' hs
    apply parallel_bind (parallel_ofFiles (hs.disk.read path))
    intro bytes bytes' h
    obtain rfl | ⟨rfl, rfl⟩ := h
    · split
      · exact parallel_pure (.inl rfl)
      · exact parallel_throw _
    · rw [hcs, hcs']
      exact parallel_pure (.inr ⟨rfl, rfl⟩)
  · intro xs xs' h
    apply parallel_ofExcept
    obtain rfl | ⟨rfl, rfl⟩ := h
    · exact together_refl (fun _ => .inl rfl) _
    · rw [hv, hv']
      exact .ok (.inr ⟨rfl, rfl⟩)

end

/-! ## Compiling -/

namespace Compilation

section
variable {home : Place} {places : Place → Prop} {text text' : List UInt8} {start start' : State}
  {tools : Toolchain}

theorem parallel_runCompiler {job : CompileJob}
    (h : places (Disk.placeOf home (inside job.directory outputName))) :
    Parallel (AlikeTwins home places text text' start start') Eq
      (runCompiler (tools.writing text) job) (runCompiler (tools.writing text') job) :=
  parallel_then (parallel_record fun _ => Event.noConfusion) fun _ =>
    parallel_onDisk fun _ _ hd => hd.write (.differ h)

theorem parallel_rename {source target : Path}
    (h : ∀ r, places (Disk.placeOf home (toString source) ++ r) →
      places (Disk.placeOf home (toString target) ++ r)) :
    Parallel (AlikeTwins home places text text' start start') Eq (rename source target)
      (rename source target) := by
  unfold rename
  apply parallel_tryCatch (parallel_onDisk fun _ _ hd => hd.move h)
  intro e
  split
  · exact parallel_log_throw _ _ _
  · exact parallel_throw _

theorem parallel_readOutput {combined combined' : Json} (hfile : IsJsonFile text combined)
    (hfile' : IsJsonFile text' combined') (path : String) :
    Parallel (AlikeTwins home places text text' start start')
      (fun v v' => v' = v ∨ (v = combined ∧ v' = combined')) (readOutput path) (readOutput path) := by
  unfold readOutput
  apply parallel_tryCatch (parallel_readJson hfile hfile' path)
  intro e
  split
  · exact parallel_log_throw _ _ _
  · exact parallel_throw _

def IsOutput (source directory : Path) (here p : Place) : Prop :=
  p = Disk.placeOf here (toString directory) ++ [outputName] ∨
    p = Disk.placeOf here (toString directory) ++ [source.stem ++ ".json"]

theorem parallel_compile {source directory : Path} (hs : source.IsNormal) (hd : directory.IsNormal)
    (compiler : String) (remappings : List String) (optimize : Bool) :
    Parallel (AlikeTwins home (IsOutput source directory home) text text' start start') Eq
      (compile (tools.writing text) source directory compiler remappings optimize)
      (compile (tools.writing text') source directory compiler remappings optimize) := by
  have hmoves : ∀ r,
      IsOutput source directory home (Disk.placeOf home (toString (directory.join outputName)) ++ r) →
      IsOutput source directory home
        (Disk.placeOf home (toString (directory.join (source.stem ++ ".json"))) ++ r) := by
    intro r hr
    rw [placeOf_output hd] at hr
    rw [show directory.join (source.stem ++ ".json") = outputPath source directory from rfl,
      placeOf_outputPath hs hd]
    -- both places lie in one directory, so that nothing below the one is the other
    obtain rfl : r = [] := by
      rcases hr with h | h <;> exact List.length_eq_zero_iff.mp (by simpa using congrArg List.length h)
    exact .inr (List.append_nil _)
  unfold compile
  apply parallel_then (parallel_ensureDirectories _)
  intro _
  apply parallel_then (parallel_runCompiler (.inl (placeOf_inside_output directory home)))
  intro _
  apply parallel_then (parallel_log _ _)
  intro _
  exact parallel_then (parallel_rename hmoves) fun _ => parallel_pure rfl

end

end Compilation

theorem Publication.parallel_write {home : Place} {places : Place → Prop} {text text' : List UInt8}
    {start start' : State} (as : Artifacts) (directory : Path) (stem : String)
    (sourceName : Option String) (contexts : Hooks.Contexts) :
    Parallel (AlikeTwins home places text text' start start') Eq
      (write as directory stem sourceName contexts) (write as directory stem sourceName contexts) := by
  unfold write
  dsimp only
  apply parallel_then (parallel_ensureDirectories _)
  intro _
  apply parallel_then (parallel_ofExcept (together_refl (fun _ => rfl) _))
  intro client
  apply parallel_then (parallel_writeText _ _)
  intro _
  exact parallel_then (parallel_writeText _ _) fun _ => parallel_pure rfl

/-! ## Building -/

namespace Build

variable {tools : Toolchain} {chain : Chain} {settings : Settings} {request : BuildRequest}
  {output output' : List UInt8} {combined combined' : Json} {s t : State}

/-- Two outputs of the compiler with the same contracts to deploy, and the same warnings and errors. -/
structure SameSelection (output output' : List UInt8) (combined combined' : Json) : Prop where
  file : IsJsonFile output combined
  file' : IsJsonFile output' combined'
  selected : Parallel Eq (fun all all' => all'.deployable = all.deployable)
    (Extraction.run combined) (Extraction.run combined')

section
variable (h : SameSelection output output' combined combined')
include h

theorem parallel_compileWith {start start' : State} {home : Place} {source directory : Path}
    (hs : source.IsNormal) (hd : directory.IsNormal) (compiler : String) :
    Parallel (AlikeTwins home (Compilation.IsOutput source directory home) output output' start start')
      Eq (compileWith (tools.writing output) settings source directory compiler)
      (compileWith (tools.writing output') settings source directory compiler) := by
  unfold compileWith
  apply parallel_then (Compilation.parallel_compile hs hd _ _ _)
  intro target
  apply parallel_bind (Compilation.parallel_readOutput h.file h.file' _)
  intro v v' hv
  apply parallel_bind (P := fun all all' => all'.deployable = all.deployable)
  · apply parallel_ofLogged
    obtain rfl | ⟨rfl, rfl⟩ := hv
    · exact (parallel_refl _).mono fun _ _ he => by rw [he]
    · exact h.selected
  · intro all all' hsame
    dsimp only
    rw [hsame]
    exact parallel_then (parallel_log _ _) fun _ => parallel_pure rfl

end

theorem parallel_publish {start start' : State} {home : Place} {places : Place → Prop}
    (contracts : Artifacts) :
    Parallel (AlikeTwins home places output output' start start') Eq
      (publish settings request contracts) (publish settings request contracts) := by
  unfold publish
  apply parallel_then (Publication.parallel_write _ _ _ _ _)
  intro paths
  exact parallel_then (parallel_log _ _) fun _ => parallel_pure rfl

def stagesWith (services : Services) (settings : Settings) (request : BuildRequest)
    (compiler : String) : Session Artifacts := do
  let contracts ← compileWith services.tools settings request.sourcePath request.directoryPath compiler
  let contracts ← deployContracts services settings request.deployer request.args contracts
  publish settings request contracts

theorem stages_eq_find (services : Services) : stages services settings request =
    (Compilation.find services.tools settings.compilerVersion settings.compilerPath >>=
      stagesWith services settings request) := by
  rw [stages_eq, prepare, compileContracts_eq, bind_assoc, bind_assoc]
  rfl

abbrev IsOutput (request : BuildRequest) : Place → Place → Prop :=
  Compilation.IsOutput request.sourcePath request.directoryPath

theorem parallel_stagesWith (tools : Toolchain) (chain : Chain) (settings : Settings)
    (request : BuildRequest) (h : SameSelection output output' combined combined') (start : State)
    (compiler : String) :
    Parallel (AlikeTwins start.disk.here (IsOutput request start.disk.here) output output' start start)
      Eq (stagesWith ⟨tools.writing output, chain⟩ settings request compiler)
      (stagesWith ⟨tools.writing output', chain⟩ settings request compiler) := by
  unfold stagesWith
  apply parallel_then (parallel_compileWith h request.isNormal_sourcePath
    request.isNormal_directoryPath compiler)
  intro contracts
  exact parallel_then (parallel_deployContracts _ _ _ _ _ _ fun _ _ => rfl) parallel_publish

/-- Neither module of a build lies where the output of its compiler does. -/
theorem not_isOutput_module (request : BuildRequest) (here : Place) :
    ¬IsOutput request here (request.clientPlace here) ∧
      ¬IsOutput request here (request.hooksPlace here) := by
  have hwithin := Publication.not_within (request.outPlace here) request.sourcePath.stem
  have hcombined : Compilation.outputName = "combined" ++ ".json" := by decide
  rw [BuildRequest.clientPlace, BuildRequest.hooksPlace,
    Publication.placeOf_clientPath request.isNormal_directoryPath request.isComponent_module,
    Publication.placeOf_hooksPath request.isNormal_directoryPath request.isComponent_module]
  have hnot : ∀ p, (p = request.outPlace here ++ [request.sourcePath.stem ++ ".js"] ∨
      p = request.outPlace here ++ [Publication.hooksDirectory, request.sourcePath.stem ++ ".js"]) →
      ¬IsOutput request here p := by
    rintro p hp (he | he)
    · rw [hcombined] at he
      exact hwithin "combined" p hp (he ▸ List.prefix_rfl)
    · exact hwithin request.sourcePath.stem p hp (he ▸ List.prefix_rfl)
  exact ⟨hnot _ (.inl rfl), hnot _ (.inr rfl)⟩

/-- What two builds leave that differ in the output of the compiler alone. -/
structure SameButOutput (request : BuildRequest) (t t' : State) : Prop where
  contracts : t'.contracts = t.contracts
  exchanges : t'.exchanges = t.exchanges
  log : t'.log = t.log
  client : t'.disk.read (toString (Publication.clientPath request.directoryPath request.sourcePath.stem)) =
    t.disk.read (toString (Publication.clientPath request.directoryPath request.sourcePath.stem))
  hooks : t'.disk.read (toString (Publication.hooksPath request.directoryPath request.sourcePath.stem)) =
    t.disk.read (toString (Publication.hooksPath request.directoryPath request.sourcePath.stem))
  elsewhere : ∀ path, ¬IsOutput request t.disk.here (Disk.placeOf t.disk.here path) →
    t'.disk.read path = t.disk.read path

theorem SameButOutput.refl (request : BuildRequest) (t : State) : SameButOutput request t t :=
  ⟨rfl, rfl, rfl, rfl, rfl, fun _ _ => rfl⟩

theorem sameButOutput_of_alike {start : State} {home : Place}
    (h : AlikeTwins home (IsOutput request home) output output' start start s t) :
    SameButOutput request s t := by
  obtain ⟨lines, hl, hl'⟩ := h.log
  obtain ⟨es, he, he'⟩ := h.calls
  obtain ⟨hclient, hhooks⟩ := not_isOutput_module request home
  refine ⟨h.contracts, by rw [he, he'], by rw [hl, hl'], h.disk.read_eq hclient,
    h.disk.read_eq hhooks, ?_⟩
  intro path hpath
  rw [h.disk.here] at hpath
  exact h.disk.read_eq hpath

/-- Builds of which the rest is the same, once they have found a compiler. -/
theorem run_tryCatch_bind_of_ok {α β : Type} {x : Session α} {f : α → Session β}
    {handler : Error → Session β} {a : α} {u : State} (h : Runs x s (.ok a) u) :
    (tryCatch (x >>= f) handler).run.run s = (tryCatch (f a) handler).run.run u := by
  obtain ⟨o, v, hrest⟩ := runs_total (f a) u
  have hall : Runs (x >>= f) s o v := (runs_bind_of_ok h).mpr hrest
  cases o with
  | ok b => rw [run_tryCatch_of_ok hall, run_tryCatch_of_ok hrest]
  | error e => rw [run_tryCatch_of_error hall, run_tryCatch_of_error hrest]

def loggedStages (services : Services) (settings : Settings) (request : BuildRequest) :
    Session Artifacts :=
  tryCatch (stages services settings request) fun e => do
    log .error ("compilation failed: " ++ e.message)
    throw e

def settingsFor (request : BuildRequest) : Session Settings :=
  match request.settings with
  | some settings => pure settings
  | none => Settings.load none

theorem run_eq (services : Services) (request : BuildRequest) : run services request =
    settingsFor request >>= fun settings => loggedStages services settings request := by
  unfold run settingsFor
  cases request.settings <;> rfl

theorem loggedStages_sameButOutput (h : SameSelection output output' combined combined')
    {r : Except Error Artifacts}
    (hrun : Runs (loggedStages ⟨tools.writing output, chain⟩ settings request) s r t) :
    ∃ t', Runs (loggedStages ⟨tools.writing output', chain⟩ settings request) s r t' ∧
      SameButOutput request t t' := by
  unfold loggedStages at hrun ⊢
  rw [stages_eq_find] at hrun ⊢
  -- a compiler is looked for in the same way, whatever it writes
  have hfind : Compilation.find (tools.writing output') settings.compilerVersion settings.compilerPath =
      Compilation.find (tools.writing output) settings.compilerVersion settings.compilerPath := rfl
  rw [hfind]
  obtain ⟨o, u, hu⟩ := runs_total
    (Compilation.find (tools.writing output) settings.compilerVersion settings.compilerPath) s
  cases o with
  | error e =>
    have hfails : ∀ {f : String → Session Artifacts}, Runs (Compilation.find (tools.writing output)
        settings.compilerVersion settings.compilerPath >>= f) s (.error e) u := run_bind_of_error hu
    rw [Runs, run_tryCatch_of_error hfails] at hrun
    exact ⟨t, (run_tryCatch_of_error hfails).trans hrun, .refl request t⟩
  | ok compiler =>
    rw [Runs, run_tryCatch_bind_of_ok hu] at hrun
    have hparallel := parallel_tryCatch
      (parallel_stagesWith tools chain settings request h u compiler)
      fun e => parallel_log_throw .error ("compilation failed: " ++ e.message) e
    obtain ⟨r₁, r₂, t₁, t₂, h₁, h₂, hr, hs⟩ := hparallel u u (alike_start (Disk.twins_refl u.disk) rfl)
    obtain ⟨rfl, rfl⟩ := runs_unique h₁ hrun
    rw [hr.eq] at h₂
    exact ⟨t₂, (run_tryCatch_bind_of_ok hu).trans h₂, sameButOutput_of_alike hs⟩

def BuildAlike (output output' : List UInt8) : Prop :=
  ∀ (tools : Toolchain) (chain : Chain) (request : BuildRequest) (s t : State)
    (r : Except Error Artifacts), Runs (run ⟨tools.writing output, chain⟩ request) s r t →
      ∃ t', Runs (run ⟨tools.writing output', chain⟩ request) s r t' ∧ SameButOutput request t t'

theorem buildAlike_of_sameSelection (h : SameSelection output output' combined combined') :
    BuildAlike output output' := by
  intro tools chain request s t r hrun
  rw [run_eq] at hrun ⊢
  rcases runs_bind.mp hrun with ⟨e, hset, rfl⟩ | ⟨settings, u, hset, hrest⟩
  · exact ⟨t, run_bind_of_error hset, .refl request t⟩
  · obtain ⟨t', ht', hsame⟩ := loggedStages_sameButOutput h hrest
    exact ⟨t', (runs_bind_of_ok hset).mpr ht', hsame⟩

end Build

end ContractBindings
