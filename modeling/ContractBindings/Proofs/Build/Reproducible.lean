import ContractBindings.Proofs.Build.TwoOutputs
import ContractBindings.Proofs.Files.Repeated

/-!
# Builds that are repeated

What a build that succeeds leaves in its files follows from the source, the
settings, the output of the compiler and the answers of the node, and not from
what was on the disk before. So a second build leaves the disk as the first one
did, and so does a second publication.
-/

namespace ContractBindings

open Session Files

theorem Publication.runs_write_again {as : Artifacts} {directory : Path} {stem : String}
    {sourceName : Option String} {contexts : Hooks.Contexts} {paths : Path × Path} {s t : State}
    (h : Runs (write as directory stem sourceName contexts) s (.ok paths) t) :
    ∃ t', Runs (write as directory stem sourceName contexts) t (.ok paths) t' ∧
      Disk.Same t.disk t'.disk := by
  obtain ⟨rfl, text, d₁, d₂, d₃, hdirs, htext, hw₁, hw₂, rfl⟩ := runs_write_iff.mp h
  obtain ⟨d₄, d₅, hw₃, hw₄, hsame⟩ := Disk.write_write_again hw₁ hw₂
  have hmore := (Disk.extends_write hw₁).trans (Disk.extends_write hw₂)
  have hthere := hmore.isDirectory (Disk.isDirectory_of_ensureDirectories hdirs)
  exact ⟨_, runs_write_iff.mpr ⟨rfl, text, d₃, d₄, d₅,
    Disk.ensureDirectories_of_isDirectory hthere, htext, hw₃, hw₄, rfl⟩, hsame⟩

theorem Publication.runs_write_tree {as : Artifacts} {directory : Path} {stem : String}
    {sourceName : Option String} {contexts : Hooks.Contexts} {paths : Path × Path} {s t : State}
    (htree : s.disk.IsTree) (h : Runs (write as directory stem sourceName contexts) s (.ok paths) t) :
    t.disk.IsTree := by
  obtain ⟨-, text, d₁, d₂, d₃, hdirs, -, hw₁, hw₂, rfl⟩ := runs_write_iff.mp h
  have hmade := htree.ensureDirectories (hooksPath directory stem).parent
  rw [hdirs] at hmade
  exact (hmade.write hw₁).write hw₂

namespace Build

variable {tools : Toolchain} {chain chain' : Chain} {settings : Settings} {request : BuildRequest}
  {contracts contracts' : Artifacts} {s s' t t' : State}

/-! ## What the files of a build follow from -/

structure Built (services : Services) (settings : Settings) (request : BuildRequest)
    (contracts : Artifacts) (before after : State) (compiler : String) (output : List UInt8)
    (combined : Json) (extracted : Artifacts) : Prop where
  located : Compilation.located services.tools settings.compilerVersion settings.compilerPath =
    .ok compiler
  answered : ∃ written, services.tools.compile (Compilation.jobFor request.sourcePath
    request.directoryPath compiler settings.remappings settings.optimize) = .ok written
  compiled : Compiled services settings request.sourcePath request.directoryPath extracted compiler
    output combined
  deployed : ∃ u v, u.exchanges = before.exchanges ∧ Runs (deployContracts services settings
    request.deployer request.args extracted) u (.ok contracts) v
  output_read : after.disk.read
    (toString (Compilation.outputPath request.sourcePath request.directoryPath)) = .ok output
  published : ∃ disk, Publication.Published contracts request.directoryPath request.sourcePath.stem
    (some request.sourcePath.name) settings.contexts disk after.disk

theorem runs_stages_built {services : Services}
    (h : Runs (stages services settings request) s (.ok contracts) t) :
    ∃ compiler output combined extracted,
      Built services settings request contracts s t compiler output combined extracted := by
  have hs := request.isNormal_sourcePath
  have hd := request.isNormal_directoryPath
  obtain ⟨placed, hagree⟩ := runs_stages_ok h
  rw [stages_eq_find] at h
  obtain ⟨compiler, u, hfind, h⟩ := runs_bind_ok.mp h
  unfold stagesWith at h
  obtain ⟨extracted, v, hcompile, h⟩ := runs_bind_ok.mp h
  obtain ⟨given, w, hdeploy, hpublish⟩ := runs_bind_ok.mp h
  obtain ⟨output, combined, hread, hcompiled⟩ := runs_compileWith_ok hs hd hcompile
  have hanswered := hcompile
  unfold compileWith at hanswered
  obtain ⟨target, x, hanswered, -⟩ := runs_bind_ok.mp hanswered
  unfold publish at hpublish
  obtain ⟨paths, y, hwrite, hrest⟩ := runs_bind_ok.mp hpublish
  rw [runs_log_bind, runs_pure] at hrest
  obtain ⟨hc, ht⟩ := hrest
  cases hc
  obtain ⟨-, disk, hy, hpublished⟩ :=
    Publication.runs_write_ok hd request.isComponent_module hagree.names hwrite
  have hdisk : t.disk = disk := by rw [ht, hy]
  have hwdisk : w.disk = v.disk := keeps_disk_deployContracts _ _ _ _ _ _ hdeploy
  obtain ⟨hne₁, hne₂⟩ := outputPath_ne_modules hs hd w.disk.here
  refine ⟨compiler, output, combined, extracted, Compilation.runs_find_ok hfind,
    Compilation.runs_compile_answered hanswered, hcompiled, ⟨v, w, ?_, hdeploy⟩, ?_, w.disk, ?_⟩
  · have hwhole : Runs (compileContracts services settings request.sourcePath request.directoryPath) s
        (.ok extracted) v := runs_bind_ok.mpr ⟨compiler, u, hfind, hcompile⟩
    exact OffChain.compileContracts _ _ _ _ _ _ _ hwhole
  · rw [hdisk]
    exact hpublished.others _ output (hwdisk ▸ hread) hne₁ hne₂
  · rw [hdisk]
    exact hpublished

/-- A deployment starts with its own contracts, whatever contracts there were. -/
theorem runs_deployContracts_afresh {services : Services} {deployer : Option Deployer}
    {args : Json CodePoints} {r : Except Error Artifacts} (before : Artifacts) :
    Runs (deployContracts services settings deployer args contracts) s r t ↔
      Runs (deployContracts services settings deployer args contracts)
        { s with contracts := before } r t := by
  unfold deployContracts
  rw [runs_modify_bind, runs_modify_bind]

theorem deployContracts_unique (halike : AnswersAlike chain chain' s.exchanges s'.exchanges)
    {deployer : Option Deployer} {args : Json CodePoints} {extracted : Artifacts}
    (h : Runs (deployContracts ⟨tools, chain⟩ settings deployer args extracted) s (.ok contracts) t)
    (h' : Runs (deployContracts ⟨tools, chain'⟩ settings deployer args extracted) s' (.ok contracts')
      t') : contracts' = contracts := by
  rw [runs_deployContracts_afresh s.contracts] at h'
  have hparallel : Parallel (Alike (fun _ _ => True) s { s' with contracts := s.contracts }) Eq
      (deployContracts ⟨tools, chain⟩ settings deployer args extracted)
      (deployContracts ⟨tools, chain'⟩ settings deployer args extracted) :=
    parallel_deployContracts _ _ _ _ _ _ halike
  obtain ⟨r, r', v, v', hr, hr', ho, -⟩ :=
    hparallel s { s' with contracts := s.contracts } (alike_start trivial rfl)
  obtain ⟨rfl, -⟩ := runs_unique hr h
  obtain ⟨rfl, -⟩ := runs_unique hr' h'
  exact Except.ok.inj ho.eq

def SameFile (path : Path) (d d' : Disk) : Prop :=
  ∃ bytes, d.read (toString path) = .ok bytes ∧ d'.read (toString path) = .ok bytes

structure SameFiles (request : BuildRequest) (d d' : Disk) : Prop where
  output : SameFile (Compilation.outputPath request.sourcePath request.directoryPath) d d'
  client : SameFile (Publication.clientPath request.directoryPath request.sourcePath.stem) d d'
  hooks : SameFile (Publication.hooksPath request.directoryPath request.sourcePath.stem) d d'

/-- Two builds that succeed with the same answers give the same contracts and the same files. -/
theorem stages_reproducible (hfresh : ∀ job, tools.compile job ≠ .ok none)
    (halike : AnswersAlike chain chain' s.exchanges s'.exchanges)
    (h : Runs (stages ⟨tools, chain⟩ settings request) s (.ok contracts) t)
    (h' : Runs (stages ⟨tools, chain'⟩ settings request) s' (.ok contracts') t') :
    contracts' = contracts ∧ SameFiles request t.disk t'.disk := by
  obtain ⟨compiler, output, combined, extracted, b⟩ := runs_stages_built h
  obtain ⟨compiler', output', combined', extracted', b'⟩ := runs_stages_built h'
  have hcompiler : compiler' = compiler := Except.ok.inj (b'.located.symm.trans b.located)
  subst hcompiler
  obtain ⟨written, hw⟩ := b.answered
  cases written with
  | none => exact absurd hw (hfresh _)
  | some bytes =>
    have houtput : output' = output := (b'.compiled.written bytes hw).trans
      (b.compiled.written bytes hw).symm
    subst houtput
    have hcombined := b.compiled.file.unique b'.compiled.file
    subst hcombined
    obtain ⟨all, lines, hrun, rfl⟩ := b.compiled.extracted
    obtain ⟨all', lines', hrun', rfl⟩ := b'.compiled.extracted
    obtain ⟨hall, -⟩ := runs_unique hrun hrun'
    cases hall
    obtain ⟨u, v, hu, hdeploy⟩ := b.deployed
    obtain ⟨u', v', hu', hdeploy'⟩ := b'.deployed
    have hcontracts := deployContracts_unique (hu ▸ hu' ▸ halike) hdeploy hdeploy'
    subst hcontracts
    obtain ⟨disk, hp⟩ := b.published
    obtain ⟨disk', hp'⟩ := b'.published
    exact ⟨rfl, ⟨_, b.output_read, b'.output_read⟩, ⟨_, hp.client, hp'.client⟩, _, hp.hooks, hp'.hooks⟩

/-- A build that gives contracts is a run of its stages. -/
theorem runs_run_ok_stages {services : Services} (hset : UsesSettings request settings s)
    (h : Runs (run services request) s (.ok contracts) t) :
    ∃ u, u.disk = s.disk ∧ u.exchanges = s.exchanges ∧
      Runs (stages services settings request) u (.ok contracts) t := by
  rw [run_eq] at h
  obtain ⟨used, u, hused, h⟩ := runs_bind_ok.mp h
  have hu : used = settings ∧ u.disk = s.disk ∧ u.exchanges = s.exchanges := by
    unfold settingsFor at hused
    rcases hset with hgiven | ⟨hnone, v, hload⟩
    · rw [hgiven] at hused
      obtain ⟨he, rfl⟩ := runs_pure.mp hused
      exact ⟨Except.ok.inj he, rfl, rfl⟩
    · rw [hnone] at hused
      obtain ⟨he, rfl⟩ := runs_unique hused hload
      exact ⟨Except.ok.inj he, keeps_load (fun _ _ => rfl) _ _ _ _ hload, OffChain.load _ _ _ _ hload⟩
  obtain ⟨rfl, hdisk, hexchanges⟩ := hu
  refine ⟨u, hdisk, hexchanges, ?_⟩
  unfold loggedStages at h
  rcases runs_tryCatch.mp h with ⟨_, hstages, hc⟩ | ⟨e, v, -, hlog⟩
  · cases hc
    exact hstages
  · rw [runs_log_bind, runs_throw] at hlog
    cases hlog.1

/-! ## Builds on what a build has left -/

def outputPlace (request : BuildRequest) (here : Place) : Place :=
  request.outPlace here ++ [Compilation.outputName]

abbrev OnWay (request : BuildRequest) : Place → Place → Prop :=
  (request.directoryPath.join Publication.hooksDirectory).OnWay

theorem outputPlace_ne_modules (request : BuildRequest) (here : Place) :
    ¬(outputPlace request here = request.clientPlace here ∨
      outputPlace request here = request.hooksPlace here) := by
  obtain ⟨hclient, hhooks⟩ := not_isOutput_module request here
  rintro (he | he)
  · exact hclient (he ▸ .inl rfl)
  · exact hhooks (he ▸ .inl rfl)

theorem runs_publish_tree (htree : s.disk.IsTree) {r : Artifacts}
    (h : Runs (publish settings request contracts) s (.ok r) t) : t.disk.IsTree := by
  unfold publish at h
  obtain ⟨paths, u, hwrite, hrest⟩ := runs_bind_ok.mp h
  rw [runs_log_bind, runs_pure] at hrest
  have hu := Publication.runs_write_tree htree hwrite
  rw [hrest.2]
  exact hu

theorem runs_stages_ok_confined {services : Services} (htree : s.disk.IsTree)
    (h : Runs (stages services settings request) s (.ok contracts) t) :
    Disk.Confined (IsWritten request s.disk.here) (OnWay request s.disk.here) s.disk t.disk := by
  rw [stages_eq] at h
  obtain ⟨prepared, u, hprepare, hpublish⟩ := runs_bind_ok.mp h
  exact runs_stages_confined htree hprepare hpublish

/-- A build that succeeds leaves a tree, and its output under its new name only. -/
theorem runs_stages_tree (hfresh : ∀ job, tools.compile job ≠ .ok none) (htree : s.disk.IsTree)
    (h : Runs (stages ⟨tools, chain⟩ settings request) s (.ok contracts) t) :
    t.disk.IsTree ∧ s.disk.node? (outputPlace request s.disk.here) ≠ some .directory ∧
      (Compilation.outputName ≠ request.sourcePath.stem ++ ".json" →
        ¬OnWay request s.disk.here (outputPlace request s.disk.here) →
          t.disk.node? (outputPlace request s.disk.here) = none) := by
  rw [stages_eq_find] at h
  obtain ⟨compiler, u, hfind, h⟩ := runs_bind_ok.mp h
  have hu : u.disk = s.disk := keeps_find isAside_disk _ _ _ _ _ _ hfind
  unfold stagesWith at h
  obtain ⟨extracted, v, hcompile, h⟩ := runs_bind_ok.mp h
  obtain ⟨given, w, hdeploy, hpublish⟩ := runs_bind_ok.mp h
  have hw : w.disk = v.disk := keeps_disk_deployContracts _ _ _ _ _ _ hdeploy
  unfold compileWith at hcompile
  obtain ⟨target, x, hcompile, hselect⟩ := runs_bind_ok.mp hcompile
  have hv : v.disk = x.disk := keeps_disk_selection target _ _ _ hselect
  obtain ⟨written, hanswer⟩ := Compilation.runs_compile_answered hcompile
  cases written with
  | none => exact absurd hanswer (hfresh _)
  | some bytes =>
    obtain ⟨hx, hnot, hgone⟩ := Compilation.runs_compile_tree request.isNormal_sourcePath
      request.isNormal_directoryPath (hu ▸ htree) hanswer hcompile
    have hhere := (Compilation.runs_compile_ok request.isNormal_sourcePath
      request.isNormal_directoryPath hcompile).2.1
    rw [hu] at hnot hgone hhere
    have hwx : w.disk = x.disk := hw.trans hv
    have hpublished := confines_publish request given w t _ (hwx ▸ hhere) hpublish
    refine ⟨runs_publish_tree (hwx ▸ hx) hpublish, hnot, fun hne hway => ?_⟩
    rcases hpublished.nodes _ (outputPlace_ne_modules request s.disk.here) with he | ⟨how, -⟩
    · rw [he, hwx]
      exact hgone hne
    · exact absurd how hway

/-- A build that succeeds has a directory wherever the way to the hooks module leads. -/
theorem directory_of_hooks {d : Disk} {bytes : List UInt8} {p : Place}
    (h : d.read (toString (Publication.hooksPath request.directoryPath request.sourcePath.stem)) =
      .ok bytes) (hp : OnWay request d.here p) : d.node? p = some .directory := by
  obtain ⟨-, q, hq, -⟩ := Disk.read_eq_ok.mp h
  exact Disk.directory_of_onWay
    (request.isNormal_directoryPath.join Publication.isComponent_hooksDirectory.1)
    request.isComponent_module.1 hq hp

theorem SameFile.node? {path : Path} {d d' : Disk} (h : SameFile path d d') (hh : d'.here = d.here) :
    d'.node? (Disk.placeOf d.here (toString path)) = d.node? (Disk.placeOf d.here (toString path)) := by
  obtain ⟨bytes, hr, hr'⟩ := h
  rw [Disk.node?_of_read hr, ← hh, Disk.node?_of_read hr']

/-- A second build on the disk that a build has left leaves it as it is. -/
theorem stages_again (hfresh : ∀ job, tools.compile job ≠ .ok none) (htree : s.disk.IsTree)
    (halike : AnswersAlike chain chain' s.exchanges s'.exchanges)
    (h : Runs (stages ⟨tools, chain⟩ settings request) s (.ok contracts) t)
    (hdisk : s'.disk = t.disk)
    (h' : Runs (stages ⟨tools, chain'⟩ settings request) s' (.ok contracts') t') :
    Disk.Same t.disk t'.disk := by
  obtain ⟨-, hsame⟩ := stages_reproducible hfresh halike h h'
  have hhere := (runs_stages_ok_confined htree h).here
  obtain ⟨httree, -, hgone⟩ := runs_stages_tree hfresh htree h
  obtain ⟨-, hnot, hgone'⟩ := runs_stages_tree hfresh (hdisk ▸ httree) h'
  have hconfined := runs_stages_ok_confined (hdisk ▸ httree) h'
  rw [hdisk] at hnot hgone' hconfined
  rw [← hhere] at hgone
  have hways : ∀ p, OnWay request t.disk.here p → t.disk.node? p = some .directory := by
    obtain ⟨bytes, hread, -⟩ := hsame.hooks
    exact fun p => directory_of_hooks hread
  -- the compiler could not write over a directory, so none is on the way at its output
  have hoff : ¬OnWay request t.disk.here (outputPlace request t.disk.here) := fun hway =>
    hnot (hways _ hway)
  have houtput := hsame.output.node? hconfined.here
  rw [Compilation.placeOf_outputPath request.isNormal_sourcePath request.isNormal_directoryPath]
    at houtput
  refine ⟨hconfined.here, fun p => ?_⟩
  by_cases hp : IsWritten request t.disk.here p
  · rcases hp with he | he | he | he
    · rw [he]
      by_cases hname : Compilation.outputName = request.sourcePath.stem ++ ".json"
      · rw [hname]
        exact houtput
      · exact (hgone' hname hoff).trans (hgone hname hoff).symm
    · rw [he]
      exact houtput
    · rw [he]
      exact hsame.client.node? hconfined.here
    · rw [he]
      exact hsame.hooks.node? hconfined.here
  · rcases hconfined.nodes p hp with he | ⟨hway, hnone, -⟩
    · exact he
    · rw [hways p hway] at hnone
      cases hnone

/-- **What a build leaves does not depend on what was there.** Two builds that succeed give the same
contracts and the same files, if the compiler writes its output and the nodes answer alike. On what a
build has left, a second one that succeeds leaves everything as it is; and so does a second
publication of the same artifacts, which succeeds if the first one did. -/
theorem run_reproducible :
    (∀ (tools : Toolchain) (chain chain' : Chain) (request : BuildRequest) (settings : Settings)
      (contracts contracts' : Artifacts) (s s' t t' : State),
      (∀ job, tools.compile job ≠ .ok none) → UsesSettings request settings s →
      UsesSettings request settings s' → AnswersAlike chain chain' s.exchanges s'.exchanges →
      Runs (run ⟨tools, chain⟩ request) s (.ok contracts) t →
      Runs (run ⟨tools, chain'⟩ request) s' (.ok contracts') t' →
        contracts' = contracts ∧ SameFiles request t.disk t'.disk ∧
          (s.disk.IsTree → s'.disk = t.disk → Disk.Same t.disk t'.disk)) ∧
    ∀ (as : Artifacts) (directory : Path) (stem : String) (sourceName : Option String)
      (contexts : Hooks.Contexts) (paths : Path × Path) (s t : State),
      Runs (Publication.write as directory stem sourceName contexts) s (.ok paths) t →
        ∃ t', Runs (Publication.write as directory stem sourceName contexts) t (.ok paths) t' ∧
          Disk.Same t.disk t'.disk := by
  refine ⟨?_, fun _ _ _ _ _ _ _ _ h => Publication.runs_write_again h⟩
  intro tools chain chain' request settings contracts contracts' s s' t t' hfresh hset hset' halike h h'
  obtain ⟨u, hu, hue, hstages⟩ := runs_run_ok_stages hset h
  obtain ⟨u', hu', hue', hstages'⟩ := runs_run_ok_stages hset' h'
  have halike' : AnswersAlike chain chain' u.exchanges u'.exchanges := hue ▸ hue' ▸ halike
  obtain ⟨hcontracts, hfiles⟩ := stages_reproducible hfresh halike' hstages hstages'
  refine ⟨hcontracts, hfiles, fun htree hdisk => ?_⟩
  exact stages_again hfresh (hu ▸ htree) halike' hstages (hu'.trans hdisk) hstages'

/-! The build of one contract on an empty disk, on one with an older module, and on what it left. -/

def settledState : State :=
  { emptyState with disk := ((run vaultServices vaultRequest).run.run emptyState).2.disk }

theorem run_reproducible_vault :
    ∃ contracts contracts' contracts'' t t' t'',
      Runs (run vaultServices vaultRequest) emptyState (.ok contracts) t ∧
      Runs (run vaultServices vaultRequest) rebuiltState (.ok contracts') t' ∧
      Runs (run vaultServices vaultRequest) settledState (.ok contracts'') t'' ∧
      contracts' = contracts ∧ SameFiles vaultRequest t.disk t'.disk ∧ Disk.Same t.disk t''.disk ∧
      ∃ paths u u', Runs (Publication.write [] ⟨"", ["out"]⟩ "Vault" none ⟨"", ""⟩) emptyState
        (.ok paths) u ∧
        Runs (Publication.write [] ⟨"", ["out"]⟩ "Vault" none ⟨"", ""⟩) u (.ok paths) u' ∧
        Disk.Same u.disk u'.disk := by
  have hfresh : ∀ job, vaultServices.tools.compile job ≠ .ok none := fun _ => nofun
  have htree : emptyState.disk.IsTree := Disk.isTree_of_nodes (by decide) (by decide)
  obtain ⟨contracts, t, h⟩ := exists_ok_of_isSome
    (show ((run vaultServices vaultRequest).run.run emptyState).1.toOption.isSome = true by
      decide +kernel)
  obtain ⟨contracts', t', h'⟩ := exists_ok_of_isSome
    (show ((run vaultServices vaultRequest).run.run rebuiltState).1.toOption.isSome = true by
      decide +kernel)
  obtain ⟨contracts'', t'', h''⟩ := exists_ok_of_isSome
    (show ((run vaultServices vaultRequest).run.run settledState).1.toOption.isSome = true by
      decide +kernel)
  have ht : settledState.disk = t.disk := by
    rw [settledState, show (run vaultServices vaultRequest).run.run emptyState = (.ok contracts, t) from h]
  obtain ⟨paths, u, hu⟩ := exists_ok_of_isSome
    (show ((Publication.write [] ⟨"", ["out"]⟩ "Vault" none ⟨"", ""⟩).run.run
      emptyState).1.toOption.isSome = true by decide +kernel)
  obtain ⟨u', hu', hpublished⟩ := run_reproducible.2 _ _ _ _ _ _ _ _ hu
  obtain ⟨hcontracts, hfiles, -⟩ := run_reproducible.1 _ _ _ _ Settings.default _ _ emptyState
    rebuiltState _ _ hfresh (.inl rfl) (.inl rfl) (fun _ _ => rfl) h h'
  obtain ⟨-, -, hsame⟩ := run_reproducible.1 _ _ _ _ Settings.default _ _ emptyState settledState _ _
    hfresh (.inl rfl) (.inl rfl) (fun _ _ => rfl) h h''
  exact ⟨contracts, contracts', contracts'', t, t', t'', h, h', h'', hcontracts, hfiles,
    hsame htree ht, paths, u, u', hu, hu', hpublished⟩

end Build

end ContractBindings
