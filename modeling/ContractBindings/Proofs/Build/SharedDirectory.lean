import ContractBindings.Proofs.Build.Reproducible

/-!
# Builds into one directory

Builds of sources with different stems write to different files, but all of
them let the compiler write to one and the same file first. So a file of a
build is as it was after all later builds, unless it has the name of that one
file: the output for a source whose stem is `combined`.
-/

namespace ContractBindings

open Session Files

variable {s t : State}

theorem Publication.runs_write_extends {as : Artifacts} {directory : Path} {stem : String}
    {sourceName : Option String} {contexts : Hooks.Contexts} {paths : Path × Path}
    (h : Runs (write as directory stem sourceName contexts) s (.ok paths) t) :
    Disk.Extends s.disk t.disk := by
  obtain ⟨-, text, d₁, d₂, d₃, hdirs, -, hw₁, hw₂, rfl⟩ := runs_write_iff.mp h
  have hg := Disk.grows_ensureDirectories s.disk (hooksPath directory stem).parent
  rw [hdirs] at hg
  exact (hg.extends.trans (Disk.extends_write hw₁)).trans (Disk.extends_write hw₂)

namespace Build

variable {services : Services} {settings : Settings} {request : BuildRequest} {contracts : Artifacts}

/-! ## What a successful build keeps -/

theorem runs_compileContracts_extends {source directory : Path} (hs : source.IsNormal)
    (hd : directory.IsNormal) (htree : s.disk.IsTree)
    (h : Runs (compileContracts services settings source directory) s (.ok contracts) t) :
    t.disk.IsTree ∧ Disk.Extends s.disk t.disk := by
  obtain ⟨bytes, hfile⟩ := (runs_compileContracts_footprint hs hd htree h).2 ⟨contracts, rfl⟩
  unfold compileContracts at h
  obtain ⟨compiler, u, hfind, h⟩ := runs_bind_ok.mp h
  have hu : u.disk = s.disk := keeps_find isAside_disk _ _ _ _ _ _ hfind
  obtain ⟨target, v, hcompile, hselect⟩ := runs_bind_ok.mp h
  have hv : t.disk = v.disk := keeps_disk_selection target _ _ _ hselect
  rw [hv, ← hu] at hfile
  rw [hv, ← hu]
  exact Compilation.runs_compile_extends hs hd (hu ▸ htree) hcompile hfile

theorem runs_stages_extends (htree : s.disk.IsTree)
    (h : Runs (stages services settings request) s (.ok contracts) t) :
    t.disk.IsTree ∧ Disk.Extends s.disk t.disk := by
  rw [stages_eq] at h
  obtain ⟨prepared, u, hprepare, hpublish⟩ := runs_bind_ok.mp h
  unfold prepare at hprepare
  obtain ⟨extracted, v, hcompile, hdeploy⟩ := runs_bind_ok.mp hprepare
  obtain ⟨hvtree, hextends⟩ := runs_compileContracts_extends request.isNormal_sourcePath
    request.isNormal_directoryPath htree hcompile
  have hu : u.disk = v.disk := keeps_disk_deployContracts _ _ _ _ _ _ hdeploy
  rw [← hu] at hvtree hextends
  refine ⟨runs_publish_tree hvtree hpublish, hextends.trans ?_⟩
  unfold publish at hpublish
  obtain ⟨paths, w, hwrite, hlog⟩ := runs_bind_ok.mp hpublish
  rw [runs_log_bind, runs_pure] at hlog
  rw [hlog.2]
  have hw := Publication.runs_write_extends hwrite
  exact hw

structure Success where
  services : Services
  request : BuildRequest
  before : State
  contracts : Artifacts
  after : State
  runs : Runs (run services request) before (.ok contracts) after

namespace Success

variable {b : Success}

def stem (b : Success) : String := b.request.sourcePath.stem

theorem exists_stages (b : Success) : ∃ settings u, UsesSettings b.request settings b.before ∧
    u.disk = b.before.disk ∧ u.exchanges = b.before.exchanges ∧
    Runs (stages b.services settings b.request) u (.ok b.contracts) b.after := by
  obtain ⟨settings, placed, hset, -⟩ := run_agrees b.runs
  obtain ⟨u, hdisk, hexchanges, hstages⟩ := runs_run_ok_stages hset b.runs
  exact ⟨settings, u, hset, hdisk, hexchanges, hstages⟩

theorem exists_built (b : Success) : ∃ settings compiler output combined extracted,
    UsesSettings b.request settings b.before ∧
    Built b.services settings b.request b.contracts b.before b.after compiler output combined
      extracted := by
  obtain ⟨settings, u, hset, -, hexchanges, hstages⟩ := b.exists_stages
  obtain ⟨compiler, output, combined, extracted, hbuilt⟩ := runs_stages_built hstages
  exact ⟨settings, compiler, output, combined, extracted, hset,
    { hbuilt with deployed := hexchanges ▸ hbuilt.deployed }⟩

theorem isTree_after (htree : b.before.disk.IsTree) : b.after.disk.IsTree := by
  obtain ⟨settings, u, -, hdisk, -, hstages⟩ := b.exists_stages
  exact (runs_stages_extends (hdisk ▸ htree) hstages).1

theorem here_after (htree : b.before.disk.IsTree) : b.after.disk.here = b.before.disk.here := by
  obtain ⟨settings, u, -, hdisk, -, hstages⟩ := b.exists_stages
  rw [(runs_stages_extends (hdisk ▸ htree) hstages).2.here, hdisk]

/-- A file at a place that a build does not write to is as before. -/
theorem read_after (htree : b.before.disk.IsTree) {path : String} {bytes : List UInt8}
    (hr : b.before.disk.read path = .ok bytes)
    (hp : ¬IsWritten b.request b.before.disk.here (Disk.placeOf b.before.disk.here path)) :
    b.after.disk.read path = .ok bytes := by
  obtain ⟨settings, u, -, hdisk, -, hstages⟩ := b.exists_stages
  rw [← hdisk] at htree hr hp
  have hextends := (runs_stages_extends htree hstages).2
  have hnode := Disk.node?_of_read hr
  rcases (runs_stages_ok_confined htree hstages).nodes _ hp with he | ⟨-, hnone, -⟩
  · exact hextends.read he hr
  · rw [hnone] at hnode
    cases hnode

end Success

/-! ## The files of different builds -/

def jsonPlace (request : BuildRequest) (here : Place) : Place :=
  Disk.placeOf here (toString (Compilation.outputPath request.sourcePath request.directoryPath))

/-- A build into the same directory does not write to the files of a source with another stem, unless
the output for that source is the file that each compiler writes to. -/
theorem not_isWritten_of_stem_ne {r r' : BuildRequest} {here : Place}
    (hout : r'.outPlace here = r.outPlace here) (hne : r'.sourcePath.stem ≠ r.sourcePath.stem) :
    ¬IsWritten r' here (r.clientPlace here) ∧ ¬IsWritten r' here (r.hooksPlace here) ∧
      (r.sourcePath.stem ≠ "combined" → ¬IsWritten r' here (jsonPlace r here)) := by
  have hname : Compilation.outputName = "combined" ++ ".json" := by decide
  have hsame : ∀ suffix : String, r.sourcePath.stem ++ suffix ≠ r'.sourcePath.stem ++ suffix :=
    fun suffix h => hne ((String.append_left_inj suffix).mp h).symm
  have hclient : ∀ r : BuildRequest, r.clientPlace here =
      r.outPlace here ++ [r.sourcePath.stem ++ ".js"] := fun r =>
    Publication.placeOf_clientPath r.isNormal_directoryPath r.isComponent_module here
  have hhooks : ∀ r : BuildRequest, r.hooksPlace here =
      r.outPlace here ++ [Publication.hooksDirectory, r.sourcePath.stem ++ ".js"] := fun r =>
    Publication.placeOf_hooksPath r.isNormal_directoryPath r.isComponent_module here
  have hjson : jsonPlace r here = r.outPlace here ++ [r.sourcePath.stem ++ ".json"] :=
    Compilation.placeOf_outputPath r.isNormal_sourcePath r.isNormal_directoryPath here
  -- all of these places lie in one directory, so only their names there count
  unfold IsWritten
  simp only [hclient, hhooks, hjson, hout, hname, List.append_cancel_left_eq, List.cons.injEq, and_true]
  refine ⟨?_, ?_, ?_⟩
  · rintro (h | h | h | ⟨-, h⟩)
    · exact Publication.js_ne_json _ _ h
    · exact Publication.js_ne_json _ _ h
    · exact hsame _ h
    · cases h
  · rintro (⟨-, h⟩ | ⟨-, h⟩ | ⟨-, h⟩ | ⟨-, h⟩)
    · cases h
    · cases h
    · cases h
    · exact hsame _ h
  · rintro hstem (h | h | h | ⟨-, h⟩)
    · exact hstem ((String.append_left_inj _).mp h)
    · exact hsame _ h
    · exact Publication.js_ne_json _ _ h.symm
    · cases h

/-! ## Builds in turn -/

/-- Builds each of which starts on the disk that the one before it has left. -/
inductive InTurn : Disk → List Success → Disk → Prop
  | nil (d : Disk) : InTurn d [] d
  | cons {d d' : Disk} {b : Success} {builds : List Success} (start : b.before.disk = d)
      (rest : InTurn b.after.disk builds d') : InTurn d (b :: builds) d'

variable {builds : List Success} {d d' : Disk}

/-- A file at a place that no build writes to is as before all of them. -/
theorem InTurn.read (h : InTurn d builds d') {path : String} {bytes : List UInt8} :
    d.IsTree → d.read path = .ok bytes →
      (∀ b ∈ builds, ¬IsWritten b.request d.here (Disk.placeOf d.here path)) →
        d'.read path = .ok bytes := by
  induction h with
  | nil => exact fun _ hr _ => hr
  | @cons d d' b builds start _ ih =>
    subst start
    intro htree hr hp
    have hhere := b.here_after htree
    refine ih (b.isTree_after htree) (b.read_after htree hr (hp b List.mem_cons_self)) fun b' hb' => ?_
    rw [hhere]
    exact hp b' (List.mem_cons_of_mem b hb')

theorem InTurn.sameFile (h : InTurn d builds d') {path : Path} {d₀ : Disk} (htree : d.IsTree)
    (hsame : SameFile path d₀ d)
    (hp : ∀ b ∈ builds, ¬IsWritten b.request d.here (Disk.placeOf d.here (toString path))) :
    SameFile path d₀ d' := by
  obtain ⟨bytes, hr₀, hr⟩ := hsame
  exact ⟨bytes, hr₀, h.read htree hr hp⟩

/-- What is left of a build on a later disk: both modules as the build wrote them, and the output of its
compiler if that is `claimed`. -/
structure LeftOn (b : Success) (output : List UInt8) (later : Disk) (claimed : Prop) : Prop where
  client : SameFile (Publication.clientPath b.request.directoryPath b.stem) b.after.disk later
  hooks : SameFile (Publication.hooksPath b.request.directoryPath b.stem) b.after.disk later
  output : claimed → later.read
    (toString (Compilation.outputPath b.request.sourcePath b.request.directoryPath)) = .ok output

theorem LeftOn.mono {b : Success} {output : List UInt8} {later : Disk} {claimed claimed' : Prop}
    (h : LeftOn b output later claimed) (hc : claimed' → claimed) : LeftOn b output later claimed' :=
  ⟨h.client, h.hooks, fun hc' => h.output (hc hc')⟩

theorem Built.leftOn {b : Success} {settings : Settings} {compiler : String} {output : List UInt8}
    {combined : Json} {extracted : Artifacts} (h : Built b.services settings b.request b.contracts
      b.before b.after compiler output combined extracted) : LeftOn b output b.after.disk True := by
  obtain ⟨disk, hp⟩ := h.published
  exact ⟨⟨_, hp.client, hp.client⟩, ⟨_, hp.hooks, hp.hooks⟩, fun _ => h.output_read⟩

/-- Later builds into the same directory, for sources with other stems, leave the files of a build. -/
theorem InTurn.leftOn {b : Success} {output : List UInt8} (h : InTurn b.after.disk builds d')
    (htree : b.before.disk.IsTree) (hself : LeftOn b output b.after.disk True)
    (hout : ∀ b' ∈ builds, b'.request.outPlace b.before.disk.here =
      b.request.outPlace b.before.disk.here)
    (hstems : ∀ b' ∈ builds, b'.stem ≠ b.stem) :
    LeftOn b output d' (b.stem ≠ "combined" ∨ builds = []) := by
  have hafter := b.isTree_after htree
  have hnot := fun b' hb' => not_isWritten_of_stem_ne (hout b' hb') (hstems b' hb')
  rw [← b.here_after htree] at hnot
  refine ⟨h.sameFile hafter hself.client fun b' hb' => (hnot b' hb').1,
    h.sameFile hafter hself.hooks fun b' hb' => (hnot b' hb').2.1, ?_⟩
  rintro (hstem | rfl)
  · exact h.read hafter (hself.output trivial) fun b' hb' => (hnot b' hb').2.2 hstem
  · cases h
    exact hself.output trivial

/-- **Builds into one directory leave each other's files**, if their sources have different stems. After
the last build both modules of each are as it wrote them, and its output is what its compiler wrote;
only the output for the stem `combined` lasts no longer than until the next build. -/
theorem builds_share_directory (h : InTurn d builds d') {out : Place} :
    d.IsTree → (∀ b ∈ builds, b.request.outPlace d.here = out) → (builds.map (·.stem)).Nodup →
      ∀ b ∈ builds, ∃ settings compiler output combined extracted,
        UsesSettings b.request settings b.before ∧
        Built b.services settings b.request b.contracts b.before b.after compiler output combined
          extracted ∧
        LeftOn b output d' (b.stem ≠ "combined" ∨ builds.getLast? = some b) := by
  induction h with
  | nil => exact fun _ _ _ b hb => (List.not_mem_nil hb).elim
  | @cons d d' b builds start rest ih =>
    subst start
    intro htree hout hstems b' hb'
    rw [List.map_cons, List.nodup_cons] at hstems
    obtain ⟨hnew, hstems⟩ := hstems
    have hfirst := hout b List.mem_cons_self
    have hlater : ∀ b' ∈ builds, b'.request.outPlace b.before.disk.here = out :=
      fun b' hb' => hout b' (List.mem_cons_of_mem b hb')
    rcases List.mem_cons.mp hb' with rfl | hb'
    · obtain ⟨settings, compiler, output, combined, extracted, hset, hbuilt⟩ := b'.exists_built
      refine ⟨settings, compiler, output, combined, extracted, hset, hbuilt, ?_⟩
      refine (rest.leftOn htree hbuilt.leftOn (fun c hc => (hlater c hc).trans hfirst.symm)
        fun c hc he => hnew (he ▸ List.mem_map_of_mem hc)).mono ?_
      rintro (hstem | hlast)
      · exact .inl hstem
      · cases builds with
        | nil => exact .inr rfl
        | cons c builds =>
          -- the last build is one of the later ones, which have other stems
          rw [List.getLast?_cons_cons] at hlast
          exact absurd (List.mem_map_of_mem (List.mem_of_getLast? hlast)) hnew
    · rw [← b.here_after htree] at hlater
      obtain ⟨settings, compiler, output, combined, extracted, hset, hbuilt, hleft⟩ :=
        ih (b.isTree_after htree) hlater hstems b' hb'
      refine ⟨settings, compiler, output, combined, extracted, hset, hbuilt, hleft.mono ?_⟩
      rintro (hstem | hlast)
      · exact .inl hstem
      · cases builds with
        | nil => exact (List.not_mem_nil hb').elim
        | cons c builds => exact .inr (List.getLast?_cons_cons ▸ hlast)

/-! Two builds into one directory, the second one on what the first one left. -/

def bankRequest : BuildRequest := { vaultRequest with source := "Bank.sol" }

theorem exists_success (request : BuildRequest) (before : State)
    (h : ((run vaultServices request).run.run before).1.toOption.isSome = true) :
    ∃ b : Success, b.request = request ∧ b.before = before ∧
      b.after = ((run vaultServices request).run.run before).2 := by
  obtain ⟨contracts, after, hrun⟩ := exists_ok_of_isSome h
  exact ⟨⟨vaultServices, request, before, contracts, after, hrun⟩, rfl, rfl,
    (congrArg Prod.snd hrun).symm⟩

def stateAfter (request : BuildRequest) : State :=
  { emptyState with disk := ((run vaultServices request).run.run emptyState).2.disk }

theorem exists_inTurn (request request' : BuildRequest)
    (h : ((run vaultServices request).run.run emptyState).1.toOption.isSome = true)
    (h' : ((run vaultServices request').run.run (stateAfter request)).1.toOption.isSome = true) :
    ∃ b b' : Success, b.request = request ∧ b'.request = request' ∧
      b.after = ((run vaultServices request).run.run emptyState).2 ∧
      b'.after = ((run vaultServices request').run.run (stateAfter request)).2 ∧
      InTurn emptyState.disk [b, b'] b'.after.disk := by
  obtain ⟨b, hb, hstart, hafter⟩ := exists_success request _ h
  obtain ⟨b', hb', hstart', hafter'⟩ := exists_success request' _ h'
  refine ⟨b, b', hb, hb', hafter, hafter', .cons (by rw [hstart]) (.cons ?_ (.nil _))⟩
  rw [hstart', hafter]
  rfl

theorem builds_share_directory_vault : ∃ b b' : Success, ∃ out,
    InTurn emptyState.disk [b, b'] b'.after.disk ∧ emptyState.disk.IsTree ∧
    (∀ c ∈ [b, b'], c.request.outPlace emptyState.disk.here = out) ∧
    ([b, b'].map (·.stem)).Nodup ∧
    ∃ output, LeftOn b output b'.after.disk (b.stem ≠ "combined" ∨ [b, b'].getLast? = some b) := by
  obtain ⟨b, b', hb, hb', -, -, hturn⟩ := exists_inTurn vaultRequest bankRequest
    (by decide +kernel) (by decide +kernel)
  have htree : emptyState.disk.IsTree := Disk.isTree_of_nodes (by decide) (by decide)
  have hout : ∀ c ∈ [b, b'], c.request.outPlace emptyState.disk.here = ["work", "out"] := by
    intro c hc
    have hrequest : c.request = vaultRequest ∨ c.request = bankRequest := by
      rcases List.mem_pair.mp hc with rfl | rfl
      · exact .inl hb
      · exact .inr hb'
    rcases hrequest with he | he <;> rw [he] <;> decide +kernel
  have hstems : ([b, b'].map (·.stem)).Nodup := by
    rw [List.map_cons, List.map_cons, List.map_nil, Success.stem, Success.stem, hb, hb']
    decide +kernel
  obtain ⟨_, _, output, _, _, -, -, hleft⟩ :=
    builds_share_directory hturn htree hout hstems b List.mem_cons_self
  exact ⟨b, b', _, hturn, htree, hout, hstems, output, hleft⟩

/-! ### The stem of the compiler's own file -/

def combinedRequest : BuildRequest := { vaultRequest with source := "combined.sol" }

/-- The output for `combined.sol` is there after its build, and gone after the next one. -/
theorem builds_lose_combined : ∃ b b' : Success, InTurn emptyState.disk [b, b'] b'.after.disk ∧
    b.stem = "combined" ∧ b'.stem = "Vault" ∧
    b'.request.outPlace ["work"] = b.request.outPlace ["work"] ∧
    b.after.disk.node? (jsonPlace b.request ["work"]) ≠ none ∧
    b'.after.disk.node? (jsonPlace b.request ["work"]) = none := by
  obtain ⟨b, b', hb, hb', hafter, hafter', hturn⟩ := exists_inTurn combinedRequest
    vaultRequest (by decide +kernel) (by decide +kernel)
  refine ⟨b, b', hturn, ?_⟩
  rw [Success.stem, Success.stem, hb, hb', hafter, hafter']
  exact ⟨by decide, by decide, rfl, by decide +kernel, by decide +kernel⟩

end Build

end ContractBindings
