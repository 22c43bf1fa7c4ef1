import ContractBindings.Proofs.Build.Agreement

/-!
# What a build leaves alone

A build that finds no compiler changes nothing, and one that fails before the
modules are written leaves both modules as they were. The places that a build
changes are those of the compiler's output, of its new name, and of the two
modules, besides new directories on the way to them.
-/

namespace ContractBindings

open Session Files

variable {α : Type} {s t : State}

/-! ## The build -/

namespace BuildRequest

def outPlace (r : BuildRequest) (here : Place) : Place := Disk.placeOf here (toString r.directoryPath)

def clientPlace (r : BuildRequest) (here : Place) : Place :=
  Disk.placeOf here (toString (Publication.clientPath r.directoryPath r.sourcePath.stem))

def hooksPlace (r : BuildRequest) (here : Place) : Place :=
  Disk.placeOf here (toString (Publication.hooksPath r.directoryPath r.sourcePath.stem))

theorem isNormal_sourcePath (r : BuildRequest) : r.sourcePath.IsNormal := Path.isNormal_ofString _

theorem isNormal_directoryPath (r : BuildRequest) : r.directoryPath.IsNormal := Path.isNormal_ofString _

theorem isComponent_module (r : BuildRequest) :
    Path.IsComponent (r.sourcePath.stem ++ ".js") ∧ r.sourcePath.stem ++ ".js" ≠ ".." :=
  Compilation.isComponent_stem r.isNormal_sourcePath ".js" (by decide) (by decide)

end BuildRequest

namespace Build

variable {services : Services} {request : BuildRequest} {settings : Settings}

def prepare (services : Services) (settings : Settings) (request : BuildRequest) :
    Session Artifacts := do
  let contracts ← compileContracts services settings request.sourcePath request.directoryPath
  deployContracts services settings request.deployer request.args contracts

def publish (settings : Settings) (request : BuildRequest) (contracts : Artifacts) :
    Session Artifacts := do
  let (client, hooks) ← Publication.write contracts request.directoryPath request.sourcePath.stem
    (some request.sourcePath.name) settings.contexts
  log .success ("bindings written to " ++ toString client ++ " and " ++ toString hooks)
  return contracts

theorem stages_eq : stages services settings request =
    prepare services settings request >>= publish settings request := by
  unfold stages prepare publish
  rw [bind_assoc]
  rfl

theorem keeps_disk_run (d : Deployer) (chain : Chain) (tasks : List Task) :
    Keeps State.disk (d.run chain tasks) := by
  intro s t r h
  rcases Deployer.runs_run h with ⟨-, -, rfl⟩ | ⟨-, ⟨_, -, -, rfl⟩ | ⟨-, -, rfl⟩ | ⟨-, _, _, -, rfl⟩⟩ <;>
    rfl

theorem keeps_disk_deployContracts (deployer : Option Deployer) (args : Json CodePoints)
    (contracts : Artifacts) :
    Keeps State.disk (deployContracts services settings deployer args contracts) := by
  unfold deployContracts
  refine keeps_bind (keeps_modify ?_) fun _ => ?_
  · exact fun _ => rfl
  dsimp only
  split
  · have hthe : Keeps State.disk (theDeployer settings deployer) := by
      unfold theDeployer
      split
      · exact keeps_pure _
      · exact keeps_bind (keeps_node isAside_disk _) fun _ => keeps_pure _
    -- what a deployer changes are the contracts, the calls and the log
    apply keeps_bind hthe
    intro d
    apply keeps_bind (keeps_ofExcept _)
    intro tasks
    apply keeps_bind (keeps_disk_run d _ tasks)
    intro results
    refine keeps_bind (fun s t r h => ?_) fun _ => keeps_bind keeps_get fun _ => keeps_pure _
    rw [runs_report h]
  · exact keeps_bind keeps_get fun _ => keeps_pure _

/-- Contracts are compiled within the footprint of a compilation, and if that succeeds, no directory has
moved. -/
theorem runs_compileContracts_footprint {source directory : Path} (hs : source.IsNormal)
    (hd : directory.IsNormal) (htree : s.disk.IsTree) {r : Except Error Artifacts}
    (h : Runs (compileContracts services settings source directory) s r t) :
    Compilation.Footprint (Disk.placeOf s.disk.here (toString directory)) source.stem
        (directory.OnWay s.disk.here) s.disk t.disk ∧
      ((∃ contracts, r = .ok contracts) → ∃ bytes,
        t.disk.node? (Disk.placeOf s.disk.here (toString directory) ++ [source.stem ++ ".json"]) =
          some (.file bytes)) := by
  unfold compileContracts at h
  rcases runs_bind.mp h with ⟨e, hfind, rfl⟩ | ⟨compiler, u, hfind, h⟩
  · have hdisk := keeps_find isAside_disk _ _ _ _ _ _ hfind
    rw [hdisk]
    exact ⟨.inl (.refl _), fun ⟨_, he⟩ => by cases he⟩
  have hu : u.disk = s.disk := keeps_find isAside_disk _ _ _ _ _ _ hfind
  rcases runs_bind.mp h with ⟨e, hcompile, rfl⟩ | ⟨target, v, hcompile, h⟩
  · have hfoot := Compilation.runs_compile_footprint hs hd (hu ▸ htree) hcompile
    rw [hu] at hfoot
    exact ⟨hfoot, fun ⟨_, he⟩ => by cases he⟩
  have hfoot := Compilation.runs_compile_footprint hs hd (hu ▸ htree) hcompile
  rw [hu] at hfoot
  obtain ⟨rfl, hhere, -⟩ := Compilation.runs_compile_ok hs hd hcompile
  rcases runs_bind.mp h with ⟨e, hread, rfl⟩ | ⟨combined, w, hread, hrest⟩
  · have hdisk := keeps_readOutput isAside_disk _ _ _ _ hread
    rw [hdisk]
    exact ⟨hfoot, fun ⟨_, he⟩ => by cases he⟩
  obtain ⟨rfl, bytes, hbytes, -⟩ := runs_readOutput_ok hread
  have hdisk : t.disk = w.disk := by
    rcases runs_bind.mp hrest with ⟨e, hextract, -⟩ | ⟨all, x, hextract, hlog⟩
    · exact keeps_ofLogged isAside_disk _ _ _ _ hextract
    · have hx := keeps_ofLogged isAside_disk _ _ _ _ hextract
      dsimp only at hlog
      rw [runs_log_bind, runs_pure] at hlog
      rw [hlog.2]
      exact hx
  rw [hdisk]
  refine ⟨hfoot, fun _ => ⟨bytes, ?_⟩⟩
  have hnode := Disk.node?_of_read hbytes
  rw [hhere, hu, Compilation.placeOf_outputPath hs hd] at hnode
  exact hnode

theorem runs_prepare_footprint (htree : s.disk.IsTree) {r : Except Error Artifacts}
    (h : Runs (prepare services settings request) s r t) :
    Compilation.Footprint (request.outPlace s.disk.here) request.sourcePath.stem
        (request.directoryPath.OnWay s.disk.here) s.disk t.disk ∧
      ((∃ contracts, r = .ok contracts) → ∃ bytes,
        t.disk.node? (request.outPlace s.disk.here ++ [request.sourcePath.stem ++ ".json"]) =
          some (.file bytes)) := by
  have hs := request.isNormal_sourcePath
  have hd := request.isNormal_directoryPath
  unfold prepare at h
  rcases runs_bind.mp h with ⟨e, hcompile, rfl⟩ | ⟨contracts, u, hcompile, hdeploy⟩
  · exact ⟨(runs_compileContracts_footprint hs hd htree hcompile).1, fun ⟨_, he⟩ => by cases he⟩
  · obtain ⟨hfoot, hfile⟩ := runs_compileContracts_footprint hs hd htree hcompile
    rw [keeps_disk_deployContracts _ _ _ _ _ _ hdeploy]
    exact ⟨hfoot, fun _ => hfile ⟨contracts, rfl⟩⟩

def IsWritten (request : BuildRequest) (here p : Place) : Prop :=
  p = request.outPlace here ++ [Compilation.outputName] ∨
    p = request.outPlace here ++ [request.sourcePath.stem ++ ".json"] ∨
    p = request.clientPlace here ∨ p = request.hooksPlace here

theorem confines_publish {here : Place} (request : BuildRequest) (contracts : Artifacts) :
    Confines here (fun p => p = request.clientPlace here ∨ p = request.hooksPlace here)
      ((request.directoryPath.join Publication.hooksDirectory).OnWay here)
      (publish settings request contracts) := by
  unfold publish
  apply confines_bind (Publication.confines_write request.isNormal_directoryPath
    request.isComponent_module contracts _ _)
  intro paths
  exact confines_of_keeps (keeps_bind (keeps_log isAside_disk _ _) fun _ => keeps_pure _)

theorem runs_stages_confined (htree : s.disk.IsTree) {contracts : Artifacts} {u : State}
    {r : Except Error Artifacts} (hprepare : Runs (prepare services settings request) s (.ok contracts) u)
    (hpublish : Runs (publish settings request contracts) u r t) :
    Disk.Confined (IsWritten request s.disk.here)
      ((request.directoryPath.join Publication.hooksDirectory).OnWay s.disk.here) s.disk t.disk := by
  obtain ⟨hfoot, hfile⟩ := runs_prepare_footprint htree hprepare
  have hprepared : Disk.Confined (IsWritten request s.disk.here)
      ((request.directoryPath.join Publication.hooksDirectory).OnWay s.disk.here) s.disk u.disk := by
    rcases hfoot with hconf | ⟨made, -, hdir, hmoved⟩
    · exact hconf.mono (fun _ hp => hp.imp id .inl) fun _ hp =>
        hp.join Publication.isComponent_hooksDirectory.1
    · -- the output was read from a file, so no directory has moved to its place
      obtain ⟨bytes, hbytes⟩ := hfile ⟨contracts, rfl⟩
      have htarget := hmoved.target []
      rw [List.append_nil, List.append_nil, hdir, hbytes] at htarget
      cases htarget
  have hpublished := confines_publish request contracts _ _ _ hprepared.here hpublish
  exact hprepared.trans (hpublished.mono (fun _ hp => .inr (.inr hp)) fun _ => id)

/-- What a build leaves of the disk, by how far it comes. -/
structure Spares (services : Services) (settings : Settings) (request : BuildRequest)
    (s : State) (r : Except Error Artifacts) (t : State) : Prop where
  locating : ∀ e u,
    Runs (Compilation.find services.tools settings.compilerVersion settings.compilerPath) s
      (.error e) u → r = .error e ∧ t.disk = s.disk ∧ t.exchanges = s.exchanges
  preparing : ∀ e u, Runs (prepare services settings request) s (.error e) u → r = .error e ∧
    Compilation.Footprint (request.outPlace s.disk.here) request.sourcePath.stem
      (request.directoryPath.OnWay s.disk.here) s.disk t.disk
  modules : ∀ e u, Runs (prepare services settings request) s (.error e) u →
    ∀ p, p = request.clientPlace s.disk.here ∨ p = request.hooksPlace s.disk.here →
      t.disk.node? p = s.disk.node? p ∨ (".." ∈ request.directoryPath.components ∧
        request.directoryPath.OnWay s.disk.here p ∧ s.disk.node? p = none ∧
        t.disk.node? p = some .directory)
  returning : ∀ contracts, r = .ok contracts → Disk.Confined (IsWritten request s.disk.here)
    ((request.directoryPath.join Publication.hooksDirectory).OnWay s.disk.here) s.disk t.disk

/-- A build with its own settings is the run of its stages, besides the log. -/
theorem runs_run_of_settings (services : Services) (s : State)
    (hset : request.settings = some settings) :
    ∃ r u t, Runs (stages services settings request) s r u ∧ Runs (run services request) s r t ∧
      t.disk = u.disk ∧ t.exchanges = u.exchanges := by
  obtain ⟨r, u, hstages⟩ := runs_total (stages services settings request) s
  unfold run
  rw [hset]
  dsimp only
  rw [pure_bind]
  cases r with
  | ok contracts => exact ⟨_, u, u, hstages, runs_tryCatch.mpr (.inl ⟨_, hstages, rfl⟩), rfl, rfl⟩
  | error e =>
    refine ⟨_, u, { u with log := u.log ++ [⟨.error, "compilation failed: " ++ e.message⟩] }, hstages,
      runs_tryCatch.mpr (.inr ⟨e, u, hstages, ?_⟩), rfl, rfl⟩
    exact runs_log_bind.mpr (runs_throw.mpr ⟨rfl, rfl⟩)

theorem spares_module {here : Place} {before after : Disk} (h : Compilation.Footprint
      (request.outPlace here) request.sourcePath.stem (request.directoryPath.OnWay here) before after) :
    ∀ p, p = request.clientPlace here ∨ p = request.hooksPlace here →
      after.node? p = before.node? p ∨ (".." ∈ request.directoryPath.components ∧
        request.directoryPath.OnWay here p ∧ before.node? p = none ∧
        after.node? p = some .directory) := by
  have hd := request.isNormal_directoryPath
  have hstem := request.isComponent_module
  intro p hp
  rw [BuildRequest.clientPlace, BuildRequest.hooksPlace, Publication.placeOf_clientPath hd hstem,
    Publication.placeOf_hooksPath hd hstem] at hp
  have hout : ∀ name, ¬request.outPlace here ++ [name ++ ".json"] <+: p := fun name =>
    Publication.not_within (request.outPlace here) request.sourcePath.stem name p hp
  have houtput : Compilation.outputName = "combined" ++ ".json" := by decide
  rcases h.elsewhere (houtput ▸ hout "combined") (hout request.sourcePath.stem) with he | ⟨hway, hrest⟩
  · exact .inl he
  · refine .inr ⟨?_, hway, hrest⟩
    -- with no step upwards, the way leads only over places above the directory, but a module lies in it
    by_contra hup
    have hprefix : p <+: Disk.placeOf here (toString request.directoryPath) := hway.prefix hd hup
    have hlen := hprefix.length_le
    rcases hp with rfl | rfl <;> rw [List.length_append, List.length_cons] at hlen <;> omega

/-- **A build spares what is not its own**: one that finds no compiler changes nothing and makes no call
on the chain; one that fails before the modules are written keeps to the footprint of a compilation
and leaves the modules; and one that gives contracts changes no more than the four files and
directories on the way to them. -/
theorem run_spares (services : Services) (hset : request.settings = some settings)
    (htree : s.disk.IsTree) :
    ∃ r t, Runs (run services request) s r t ∧ Spares services settings request s r t := by
  obtain ⟨r, u, t, hstages, hrun, hdisk, hexchanges⟩ :=
    runs_run_of_settings services s hset
  refine ⟨r, t, hrun, ?_⟩
  rw [stages_eq] at hstages
  have hfailed : ∀ {e v}, Runs (prepare services settings request) s (.error e) v →
      r = .error e ∧ u = v := by
    intro e v hprepare
    exact (runs_bind_of_error hprepare).mp hstages
  constructor
  · intro e v hfind
    have hprepare : Runs (prepare services settings request) s (.error e) v := by
      unfold prepare compileContracts
      rw [bind_assoc]
      exact run_bind_of_error hfind
    obtain ⟨hr, rfl⟩ := hfailed hprepare
    refine ⟨hr, ?_, ?_⟩
    · rw [hdisk]
      exact keeps_find isAside_disk _ _ _ _ _ _ hfind
    · rw [hexchanges]
      exact keeps_find isAside_exchanges _ _ _ _ _ _ hfind
  · intro e v hprepare
    obtain ⟨hr, rfl⟩ := hfailed hprepare
    rw [hdisk]
    exact ⟨hr, (runs_prepare_footprint htree hprepare).1⟩
  · intro e v hprepare
    obtain ⟨-, rfl⟩ := hfailed hprepare
    rw [hdisk]
    exact spares_module (runs_prepare_footprint htree hprepare).1
  · rintro contracts rfl
    obtain ⟨prepared, v, hprepare, hpublish⟩ := runs_bind_ok.mp hstages
    rw [hdisk]
    exact runs_stages_confined htree hprepare hpublish

theorem exists_error_of_isNone {work : Session α}
    (h : (work.run.run s).1.toOption.isNone = true) : ∃ e u, Runs work s (.error e) u := by
  obtain ⟨r, u, hrun⟩ := runs_total work s
  rw [show work.run.run s = (r, u) from hrun] at h
  cases r with
  | ok a => cases h
  | error e => exact ⟨e, u, hrun⟩

/-! A build whose deployment fails, with a client module from before on the disk. -/

def unreachableServices : Services :=
  { vaultServices with chain := ({ connected := false } : Rehearsal.NodeScript).node }

def rebuiltState : State where
  disk := {
    nodes := [(["work"], .directory), (["work", "out"], .directory),
      (["work", "out", "Vault.js"], .file [111, 108, 100])]
    here := ["work"] }

theorem run_spares_vault :
    vaultRequest.settings = some Settings.default ∧ rebuiltState.disk.IsTree ∧
    ∃ r t, Runs (run unreachableServices vaultRequest) rebuiltState r t ∧
      t.disk.node? (vaultRequest.clientPlace ["work"]) = some (.file [111, 108, 100]) ∧
      Spares unreachableServices Settings.default vaultRequest rebuiltState r t := by
  have htree : rebuiltState.disk.IsTree := Disk.isTree_of_nodes (by decide) (by decide)
  obtain ⟨r, t, hrun, hspares⟩ := run_spares unreachableServices
    (rfl : vaultRequest.settings = some Settings.default) htree
  have hfails : ((prepare unreachableServices Settings.default vaultRequest).run.run
      rebuiltState).1.toOption.isNone = true := by decide +kernel
  obtain ⟨e, u, hprepare⟩ := exists_error_of_isNone hfails
  have hold : rebuiltState.disk.node? (vaultRequest.clientPlace ["work"]) =
      some (.file [111, 108, 100]) := by decide
  refine ⟨rfl, htree, r, t, hrun, ?_, hspares⟩
  rcases hspares.modules e u hprepare _ (.inl rfl) with hkept | ⟨hup, -⟩
  · rw [← hold]
    exact hkept
  · exact absurd hup (by decide)

/-! ### Directories that are changed -/

def silentServices : Services :=
  { vaultServices with tools := { vaultServices.tools with compile := fun _ => .ok none } }

def folderState : State where
  disk := {
    nodes := [(["work"], .directory), (["work", "out"], .directory),
      (["work", "out", "combined.json"], .directory),
      (["work", "out", "combined.json", "notes"], .file [])]
    here := ["work"] }

def brokenServices : Services :=
  { vaultServices with
    tools := { vaultServices.tools with compile := fun _ => .error (.system "out of memory") } }

def detourRequest : BuildRequest := { vaultRequest with directory := some "Vault.js/.." }

/-- A directory in the place of the output moves with what it holds; and a path that leads over the
place of the client module and back leaves a directory there. In both cases the build fails before the
modules are written. -/
theorem run_changes_directories :
    (∃ e u r t, Runs (prepare silentServices Settings.default vaultRequest) folderState (.error e) u ∧
      Runs (run silentServices vaultRequest) folderState r t ∧
      folderState.disk.node? ["work", "out", "combined.json", "notes"] = some (.file []) ∧
      t.disk.node? ["work", "out", "combined.json", "notes"] = none ∧
      folderState.disk.node? ["work", "out", "Vault.json", "notes"] = none ∧
      t.disk.node? ["work", "out", "Vault.json", "notes"] = some (.file [])) ∧
    ∃ e u r t, Runs (prepare brokenServices Settings.default detourRequest) emptyState (.error e) u ∧
      Runs (run brokenServices detourRequest) emptyState r t ∧
      emptyState.disk.node? (detourRequest.clientPlace ["work"]) = none ∧
      t.disk.node? (detourRequest.clientPlace ["work"]) = some .directory := by
  have hsilent : ((prepare silentServices Settings.default vaultRequest).run.run
      folderState).1.toOption.isNone = true := by decide +kernel
  have hbroken : ((prepare brokenServices Settings.default detourRequest).run.run
      emptyState).1.toOption.isNone = true := by decide +kernel
  obtain ⟨e, u, hprepare⟩ := exists_error_of_isNone hsilent
  obtain ⟨e', u', hprepare'⟩ := exists_error_of_isNone hbroken
  exact ⟨⟨e, u, _, _, hprepare, rfl, by decide, by decide +kernel, by decide, by decide +kernel⟩,
    e', u', _, _, hprepare', rfl, by decide, by decide +kernel⟩

end Build

end ContractBindings
