import ContractBindings.Proofs.Build.Stages
import ContractBindings.Rehearsal.Node

/-!
# Agreement of a successful build

A build that succeeds says the same everywhere: the contracts that it gives are
those that were sent to the chain, in order, those of the table, the classes
and the list of names of the client module, and those that the hooks module
imports. The address of each is the one in the receipt of its transaction.
-/

namespace ContractBindings

/-- The text of a client module for some contracts: the table has them with their addresses, each has a
class, and all are given away. -/
def IsClientText (source : String) (contracts : Artifacts) (text : String) : Prop :=
  (Binding.ofArtifacts contracts).map (·.name) = contracts.keys ∧
    text = generatedNote source ++ "\n" ++ "const contracts = " ++
      (Json.obj (contracts.map Client.tableEntry)).pretty ++ ";" ++ "\n" ++
      (String.join ((Binding.ofArtifacts contracts).map fun b =>
          "\nclass " ++ b.name ++ " \x7b\n" ++ Client.classBody b) ++
        "\nexport \x7b " ++ ", ".intercalate ("contracts" :: contracts.keys) ++ " \x7d;\n")

def IsHooksText (source : String) (contexts : Hooks.Contexts) (contracts : Artifacts)
    (clientModule text : String) : Prop :=
  text = linesText (Hooks.leadLines source contexts) ++ "import \x7b " ++
    ", ".intercalate ("contracts" :: contracts.keys) ++ " \x7d from '" ++ clientModule ++ "';\n" ++
    linesText (Hooks.restLines (Binding.ofArtifacts contracts))

namespace BuildRequest

def sourcePath (r : BuildRequest) : Files.Path := .ofString r.source

def directoryPath (r : BuildRequest) : Files.Path :=
  .ofString ((r.directory.filter (· != "")).getD "./")

end BuildRequest

namespace Build

open Session Files

def shownSource (request : BuildRequest) : String :=
  Publication.label request.sourcePath.stem (some request.sourcePath.name)

def writtenLine (request : BuildRequest) : LogLine :=
  ⟨.success, "bindings written to " ++
    toString (Publication.clientPath request.directoryPath request.sourcePath.stem) ++ " and " ++
    toString (Publication.hooksPath request.directoryPath request.sourcePath.stem)⟩

/-- What a successful build leaves, where it started in the state `before`. The contracts that it gives
are the ones that are placed. -/
structure Agreement (services : Services) (request : BuildRequest) (settings : Settings)
    (contracts : Artifacts) (placed : List Placement) (before after : State) : Prop where
  names : contracts.keys.Nodup
  contracts_eq : contracts = placed.map (·.entry)
  compiled : ∃ compiler output combined extracted,
    Compilation.located services.tools settings.compilerVersion settings.compilerPath =
        .ok compiler ∧
      after.disk.read (toString (Compilation.outputPath request.sourcePath request.directoryPath)) =
        .ok output ∧
      Compiled services settings request.sourcePath request.directoryPath extracted compiler output
        combined ∧
      contracts.withoutAddresses = extracted.withoutAddresses
  exchanges : after.exchanges = before.exchanges ++ callsFor placed
  idle : contracts = [] → after.exchanges = before.exchanges
  placements : ∀ p ∈ placed, p.IsPlacedBy (chosenDeployer settings request.deployer) ∧
    p.calls.countP (·.call.isSubmission) = 1 ∧ argumentsFor request.args p.name = .ok p.args
  log : ∃ lines, after.log =
    lines ++ placed.map (fun p => reportLine ⟨p.name, p.artifact.address, p.hash.hex⟩) ++
      [writtenLine request]
  client : ∃ text, after.disk.read
      (toString (Publication.clientPath request.directoryPath request.sourcePath.stem)) =
        .ok (Text.Utf8.encode text) ∧ IsClientText (shownSource request) contracts text
  hooks : ∃ text, after.disk.read
      (toString (Publication.hooksPath request.directoryPath request.sourcePath.stem)) =
        .ok (Text.Utf8.encode text) ∧
      IsHooksText (shownSource request) settings.contexts contracts
        ("../" ++ request.sourcePath.stem ++ ".js") text

variable {services : Services} {request : BuildRequest} {settings : Settings} {s t : State}
  {contracts : Artifacts}

theorem keys_withoutAddresses (as : Artifacts) : as.withoutAddresses.keys = as.keys := by
  unfold Artifacts.withoutAddresses Keyed.keys
  rw [List.map_map]
  rfl

theorem deployable_withoutAddresses (as : Artifacts) :
    as.withoutAddresses.map (·.2.deployable) = as.map (·.2.deployable) := by
  unfold Artifacts.withoutAddresses
  rw [List.map_map]
  rfl

theorem deployable_eq_of_withoutAddresses {as bs : Artifacts}
    (h : as.withoutAddresses = bs.withoutAddresses) (hb : bs.deployable = bs) :
    as.deployable = as := by
  have hmap : as.map (·.2.deployable) = bs.map (·.2.deployable) := by
    rw [← deployable_withoutAddresses, h, deployable_withoutAddresses]
  apply List.filter_eq_self.mpr
  intro q hq
  have hm : q.2.deployable ∈ bs.map (·.2.deployable) := hmap ▸ List.mem_map_of_mem hq
  obtain ⟨b, hbm, he⟩ := List.mem_map.mp hm
  rw [← he]
  exact List.filter_eq_self.mp hb b hbm

theorem keys_extracted {source directory : Path} {extracted : Artifacts} {compiler : String}
    {output : List UInt8} {combined : Json}
    (h : Compiled services settings source directory extracted compiler output combined) :
    extracted.keys.Nodup ∧ extracted.deployable = extracted := by
  obtain ⟨all, lines, hrun, rfl⟩ := h.extracted
  exact ⟨Keyed.nodup_keys_filter (Extraction.nodup_keys_run hrun) _, deployable_deployable all⟩

theorem isClientText_of_deployable (hd : contracts.deployable = contracts) (source : String) :
    IsClientText source contracts (generatedNote source ++ "\n" ++ "const contracts = " ++
      (Json.obj (contracts.deployable.map Client.tableEntry)).pretty ++ ";" ++ "\n" ++
      Client.afterTable (Binding.ofArtifacts contracts)) := by
  have hnames := Client.names_ofArtifacts contracts
  rw [hd] at hnames
  exact ⟨hnames, by rw [Client.afterTable_eq, hnames, hd]⟩

theorem isHooksText_of_deployable (hd : contracts.deployable = contracts)
    (source clientModule : String) (contexts : Hooks.Contexts) :
    IsHooksText source contexts contracts clientModule
      (Hooks.render (Binding.ofArtifacts contracts) source clientModule contexts) := by
  have hnames := Client.names_ofArtifacts contracts
  rw [hd] at hnames
  rw [IsHooksText, Hooks.render_eq, hnames]

theorem outputPath_ne_modules {source directory : Path} (hs : source.IsNormal)
    (hd : directory.IsNormal) (here : Place) :
    Disk.placeOf here (toString (Compilation.outputPath source directory)) ≠
        Disk.placeOf here (toString (Publication.clientPath directory source.stem)) ∧
      Disk.placeOf here (toString (Compilation.outputPath source directory)) ≠
        Disk.placeOf here (toString (Publication.hooksPath directory source.stem)) := by
  have hjson := Compilation.isComponent_stem hs ".json" (by decide) (by decide)
  have hjs := Compilation.isComponent_stem hs ".js" (by decide) (by decide)
  have hout : Disk.placeOf here (toString (Compilation.outputPath source directory)) =
      Disk.placeOf here (toString directory) ++ [source.stem ++ ".json"] :=
    Path.placeOf_join hd hjson.1 hjson.2
  rw [hout, Publication.placeOf_clientPath hd hjs, Publication.placeOf_hooksPath hd hjs]
  constructor
  · intro h
    have he := congrArg String.length (List.singleton_inj.mp (List.append_cancel_left h))
    rw [String.length_append, String.length_append] at he
    exact absurd (Nat.add_left_cancel he) (by decide)
  · intro h
    cases congrArg List.length (List.append_cancel_left h)

theorem runs_stages_ok (h : Runs (stages services settings request) s (.ok contracts) t) :
    ∃ placed, Agreement services request settings contracts placed s t := by
  have hs : request.sourcePath.IsNormal := Path.isNormal_ofString _
  have hd : request.directoryPath.IsNormal := Path.isNormal_ofString _
  have hstem := Compilation.isComponent_stem hs ".js" (by decide) (by decide)
  unfold stages at h
  dsimp only at h
  obtain ⟨extracted, u, hcompile, h⟩ := runs_bind_ok.mp h
  obtain ⟨given, v, hdeploy, h⟩ := runs_bind_ok.mp h
  obtain ⟨paths, w, hwrite, h⟩ := runs_bind_ok.mp h
  rw [runs_log_bind, runs_pure] at h
  obtain ⟨hc, ht⟩ := h
  cases hc
  obtain ⟨compiler, output, combined, hlocated, hread, hcompiled⟩ := runs_compileContracts_ok hs hd hcompile
  obtain ⟨hn, hdep⟩ := keys_extracted hcompiled
  obtain ⟨placed, hplaced, hp⟩ := runs_deployContracts_ok hn hdep hdeploy
  have hsame : contracts.withoutAddresses = extracted.withoutAddresses := by
    rw [hplaced]
    exact hp.contracts_eq
  have hkeys : contracts.keys.Nodup := by
    rw [← keys_withoutAddresses, hsame, keys_withoutAddresses]
    exact hn
  have hdeployable := deployable_eq_of_withoutAddresses hsame hdep
  obtain ⟨hpaths, disk, hw, hpublished⟩ := Publication.runs_write_ok hd hstem hkeys hwrite
  have hdisk : t.disk = disk := by rw [ht, hw]
  -- what the compiler wrote outlives the two modules, which lie elsewhere
  obtain ⟨hne₁, hne₂⟩ := outputPath_ne_modules hs hd v.disk.here
  have hexchanges : t.exchanges = s.exchanges ++ callsFor placed := by
    have ht' : t.exchanges = w.exchanges := by rw [ht]; rfl
    rw [ht', OffChain.write _ _ _ _ _ _ _ _ hwrite, hp.exchanges,
      OffChain.compileContracts _ _ _ _ _ _ _ hcompile]
  refine ⟨placed, hkeys, hplaced, ?_, hexchanges, ?_, ?_, ?_, ?_, ?_⟩
  · refine ⟨compiler, output, combined, extracted, hlocated, ?_, hcompiled, hsame⟩
    rw [hdisk]
    refine hpublished.others _ output ?_ hne₁ hne₂
    rw [hp.disk]
    exact hread
  · intro hnil
    rw [hplaced, List.map_eq_nil_iff] at hnil
    rw [hexchanges, hnil]
    exact List.append_nil _
  · intro p hpm
    obtain ⟨hby, hargs⟩ := hp.placements p hpm
    exact ⟨hby, hby.countP_eq_one, hargs⟩
  · obtain ⟨lines, hlog⟩ := hp.log
    refine ⟨u.log ++ lines, ?_⟩
    rw [ht, hw, hpaths]
    dsimp only
    rw [hlog]
    rfl
  · rw [hdisk]
    exact ⟨_, hpublished.client, isClientText_of_deployable hdeployable _⟩
  · rw [hdisk]
    exact ⟨_, hpublished.hooks, isHooksText_of_deployable hdeployable _ _ _⟩

def UsesSettings (request : BuildRequest) (settings : Settings) (before : State) : Prop :=
  request.settings = some settings ∨
    (request.settings = none ∧ ∃ after, Runs (Settings.load none) before (.ok settings) after)

/-- **A build that gives contracts agrees with itself**: the calls on the chain, the log and both
modules name the same contracts in the same order, with the addresses that the chain gave. -/
theorem run_agrees (h : Runs (run services request) s (.ok contracts) t) :
    ∃ settings placed, UsesSettings request settings s ∧
      Agreement services request settings contracts placed s t := by
  have hlogged : ∀ {settings : Settings} {u : State},
      Runs (tryCatch (stages services settings request) fun e => do
        log .error ("compilation failed: " ++ e.message)
        throw e) u (.ok contracts) t →
      ∃ placed, Agreement services request settings contracts placed u t := by
    intro settings u hrun
    rcases runs_tryCatch.mp hrun with ⟨_, hst, hc⟩ | ⟨e, v, -, hlog⟩
    · cases hc
      exact runs_stages_ok hst
    · rw [runs_log_bind, runs_throw] at hlog
      cases hlog.1
  unfold run at h
  dsimp only at h
  split at h
  · next given hg =>
    rw [pure_bind] at h
    obtain ⟨placed, ha⟩ := hlogged h
    exact ⟨given, placed, .inl hg, ha⟩
  · next hg =>
    obtain ⟨settings, u, hload, hrest⟩ := runs_bind_ok.mp h
    obtain ⟨placed, ha⟩ := hlogged hrest
    have hoff : u.exchanges = s.exchanges := OffChain.load none _ _ _ hload
    refine ⟨settings, placed, .inr ⟨hg, u, hload⟩, ?_⟩
    exact { ha with
      exchanges := hoff ▸ ha.exchanges
      idle := fun hnil => (ha.idle hnil).trans hoff }

/-! A build of one contract on an empty disk. -/

def vaultServices : Services where
  tools := {
    onPath := fun _ => some "/usr/bin/solc"
    install := fun _ => .ok ()
    executable := fun _ => .error (.notInstalled "no solc installed")
    compile := fun _ => .ok (some (Text.Utf8.encode ("\x7b\"contracts\": \x7b\"Vault.sol:Vault\": " ++
      "\x7b\"abi\": [\x7b\"name\": \"deployable\"\x7d], \"bin\": \"60\"\x7d\x7d\x7d"))) }
  chain := Rehearsal.NodeScript.node {}

def vaultRequest : BuildRequest :=
  { source := "Vault.sol", directory := some "out", settings := some Settings.default }

def emptyState : State where
  disk := { nodes := [(["work"], .directory)], here := ["work"] }

theorem run_agrees_vault : ∃ contracts after,
    Runs (run vaultServices vaultRequest) emptyState (.ok contracts) after ∧
      contracts.keys = ["Vault"] ∧ ∃ settings placed,
        UsesSettings vaultRequest settings emptyState ∧
          Agreement vaultServices vaultRequest settings contracts placed emptyState after := by
  have hnames : ((run vaultServices vaultRequest).run.run emptyState).1.toOption.map Keyed.keys =
      some ["Vault"] := by decide +kernel
  obtain ⟨r, after, hrun⟩ := runs_total (run vaultServices vaultRequest) emptyState
  rw [show ((run vaultServices vaultRequest).run.run emptyState) = (r, after) from hrun] at hnames
  cases r with
  | error e => cases hnames
  | ok contracts => exact ⟨contracts, after, hrun, Option.some.inj hnames, run_agrees hrun⟩

end Build

end ContractBindings
