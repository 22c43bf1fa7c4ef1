import ContractBindings.Build
import ContractBindings.Proofs.Compilation
import ContractBindings.Proofs.Deployment.Placement
import ContractBindings.Proofs.Extraction
import ContractBindings.Proofs.Publication
import ContractBindings.Proofs.Session.Keeps

/-!
# The stages of a build

What each stage of a successful build gives, and what it leaves of the calls
on the chain, the log and the disk.
-/

namespace ContractBindings

theorem runs_ofLogged_ok {α : Type} {work : Extraction.Logged α} {a : α} {s t : State} :
    Runs (Session.ofLogged work) s (.ok a) t ↔
      ∃ lines, Runs work [] (.ok a) lines ∧ t = { s with log := s.log ++ lines } := by
  obtain ⟨r, lines, hw⟩ := runs_total work []
  have hlogged : Session.ofLogged work = (do
      modify fun s => { s with log := s.log ++ lines }
      ofExcept r) := by
    unfold Session.ofLogged
    rw [show work.run [] = (r, lines) from hw]
  rw [hlogged, runs_modify_bind, runs_ofExcept]
  constructor
  · rintro ⟨rfl, rfl⟩
    exact ⟨lines, hw, rfl⟩
  · rintro ⟨lines', hw', rfl⟩
    obtain ⟨rfl, rfl⟩ := runs_unique hw hw'
    exact ⟨rfl, rfl⟩

namespace Build

open Session Files

variable {services : Services} {settings : Settings} {s t : State}

/-! ## Compiling -/

/-- What a successful compilation gives: the deployable contracts in the output of the compiler, which
lies under the name of the source. -/
structure Compiled (services : Services) (settings : Settings) (source directory : Path)
    (contracts : Artifacts) (compiler : String) (output : List UInt8) (combined : Json) : Prop where
  file : IsJsonFile output combined
  written : ∀ bytes, services.tools.compile
    (Compilation.jobFor source directory compiler settings.remappings settings.optimize) =
      .ok (some bytes) → output = bytes
  extracted : ∃ all lines, Runs (Extraction.run combined) [] (.ok all) lines ∧
    contracts = all.deployable

theorem runs_readOutput_ok {path : String} {v : Json}
    (h : Runs (Compilation.readOutput path) s (.ok v) t) :
    t = s ∧ ∃ bytes, s.disk.read path = .ok bytes ∧ IsJsonFile bytes v := by
  unfold Compilation.readOutput at h
  rcases runs_tryCatch.mp h with ⟨_, h, hv⟩ | ⟨e, u, -, h⟩
  · cases hv
    exact runs_readJson_ok.mp h
  · split at h
    · rw [runs_log_bind, runs_throw] at h
      cases h.1
    · cases (runs_throw.mp h).1

def compileWith (tools : Toolchain) (settings : Settings) (source directory : Path)
    (compiler : String) : Session Artifacts := do
  let output ← Compilation.compile tools source directory compiler settings.remappings
    settings.optimize
  let all ← ofLogged (Extraction.run (← Compilation.readOutput (toString output)))
  let contracts := all.deployable
  let names := ", ".intercalate contracts.keys
  log .info ("deployable contracts: " ++ if names = "" then "none" else names)
  return contracts

theorem compileContracts_eq (services : Services) (source directory : Path) :
    compileContracts services settings source directory =
      (Compilation.find services.tools settings.compilerVersion settings.compilerPath >>=
        compileWith services.tools settings source directory) := rfl

def selection (output : Path) : Session Artifacts := do
  let all ← ofLogged (Extraction.run (← Compilation.readOutput (toString output)))
  let contracts := all.deployable
  let names := ", ".intercalate contracts.keys
  log .info ("deployable contracts: " ++ if names = "" then "none" else names)
  return contracts

theorem keeps_disk_selection (output : Path) : Keeps State.disk (selection output) := by
  unfold selection
  apply keeps_bind (keeps_readOutput isAside_disk _)
  intro _
  apply keeps_bind (keeps_ofLogged isAside_disk _)
  intro _
  exact keeps_bind (keeps_log isAside_disk _ _) fun _ => keeps_pure _

theorem runs_compileWith_ok {source directory : Path} {compiler : String} {contracts : Artifacts}
    (hs : source.IsNormal) (hd : directory.IsNormal)
    (h : Runs (compileWith services.tools settings source directory compiler) s (.ok contracts) t) :
    ∃ output combined,
      t.disk.read (toString (Compilation.outputPath source directory)) = .ok output ∧
        Compiled services settings source directory contracts compiler output combined := by
  unfold compileWith at h
  obtain ⟨target, v, hcompile, h⟩ := runs_bind_ok.mp h
  obtain ⟨rfl, -, hout⟩ := Compilation.runs_compile_ok hs hd hcompile
  obtain ⟨combined, w, hread, h⟩ := runs_bind_ok.mp h
  obtain ⟨hw, output, hr, hfile⟩ := runs_readOutput_ok hread
  obtain ⟨all, x, hextract, h⟩ := runs_bind_ok.mp h
  obtain ⟨lines, hrun, hx⟩ := runs_ofLogged_ok.mp hextract
  dsimp only at h
  rw [runs_log_bind, runs_pure] at h
  obtain ⟨hc, ht⟩ := h
  have hc' : contracts = all.deployable := Except.ok.inj hc
  have hdisk : t.disk = v.disk := by rw [ht, hx, hw]
  rw [hdisk]
  refine ⟨output, combined, hr, hfile, ?_, all, lines, hrun, hc'⟩
  intro bytes hb
  have hn := Disk.node?_of_read hr
  rw [hout bytes hb] at hn
  cases hn; rfl

theorem runs_compileContracts_ok {source directory : Path} {contracts : Artifacts}
    (hs : source.IsNormal) (hd : directory.IsNormal)
    (h : Runs (compileContracts services settings source directory) s (.ok contracts) t) :
    ∃ compiler output combined,
      Compilation.located services.tools settings.compilerVersion settings.compilerPath =
          .ok compiler ∧
        t.disk.read (toString (Compilation.outputPath source directory)) = .ok output ∧
        Compiled services settings source directory contracts compiler output combined := by
  rw [compileContracts_eq] at h
  obtain ⟨compiler, u, hfind, h⟩ := runs_bind_ok.mp h
  obtain ⟨output, combined, hread, hcompiled⟩ := runs_compileWith_ok hs hd h
  exact ⟨compiler, output, combined, Compilation.runs_find_ok hfind, hread, hcompiled⟩

/-! ## Deploying -/

def chosenDeployer (settings : Settings) (deployer : Option Deployer) : Deployer :=
  deployer.getD (.ofSettings settings)

def reportLine (d : Deployed) : LogLine :=
  ⟨.info, d.name ++ " at " ++ d.address.display ++ ", tx " ++ d.hash⟩

/-- The calls on the chain for some placements: none for no placement, and otherwise the check of the
connection before those of each placement. -/
def callsFor (placed : List Placement) : List Exchange :=
  if placed.isEmpty then [] else ⟨.isConnected, .ok true⟩ :: placed.flatMap (·.calls)

theorem runs_theDeployer_ok {deployer : Option Deployer} {d : Deployer}
    (h : Runs (theDeployer settings deployer) s (.ok d) t) :
    d = chosenDeployer settings deployer ∧ t.exchanges = s.exchanges ∧ t.log = s.log ∧
      t.disk = s.disk ∧ t.contracts = s.contracts := by
  cases deployer with
  | some given =>
    obtain ⟨hd, rfl⟩ := runs_pure.mp h
    cases hd
    exact ⟨rfl, rfl, rfl, rfl, rfl⟩
  | none =>
    unfold theDeployer at h
    rw [runs_bind_of_ok (runs_record.mpr ⟨rfl, rfl⟩)] at h
    obtain ⟨hd, rfl⟩ := runs_pure.mp h
    cases hd
    refine ⟨rfl, ?_, rfl, rfl, rfl⟩
    exact keeps_node isAside_exchanges settings.rpcUrl _ _ _ (runs_record.mpr ⟨rfl, rfl⟩)

theorem runs_report : ∀ {results : List Deployed} {s t : State} {r : Except Error PUnit},
    Runs (results.forM report) s r t → t = { s with log := s.log ++ results.map reportLine }
  | [], s, t, r, h => by
    rw [(runs_pure.mp h).2]
    simp
  | x :: results, s, t, r, h => by
    have hrest : Runs (report x >>= fun _ => results.forM report) s r t := h
    rw [runs_report (runs_log_bind.mp hrest)]
    simp [reportLine]

theorem deployable_deployable (as : Artifacts) : as.deployable.deployable = as.deployable := by
  unfold Artifacts.deployable
  rw [List.filter_filter]
  simp

theorem ne_nil_of_isTaskFor {args : Json CodePoints} {contracts : Artifacts} {tasks : List Task}
    (hne : contracts ≠ []) (h : List.Forall₂ (Deployment.IsTaskFor args) contracts tasks) :
    tasks ≠ [] := by
  rintro rfl
  exact hne (List.forall₂_nil_right_iff.mp h)

/-- A run over the tasks for some contracts places each of them. -/
theorem runs_run_ok {d : Deployer} {chain : Chain} {args : Json CodePoints} {contracts : Artifacts}
    {tasks : List Task} {results : List Deployed} (hne : contracts ≠ []) (hn : contracts.keys.Nodup)
    (hs : s.contracts = contracts)
    (htasks : List.Forall₂ (Deployment.IsTaskFor args) contracts tasks)
    (h : Runs (d.run chain tasks) s (.ok results) t) :
    ∃ placed lines, t = s.extend (callsFor placed) lines (placed.map (·.entry)) ∧
      Artifacts.withoutAddresses (placed.map (·.entry)) = contracts.withoutAddresses ∧
      results = placed.map (·.result) ∧
      ∀ p ∈ placed, p.IsPlacedBy d ∧ argumentsFor args p.name = .ok p.args := by
  rcases Deployer.runs_run h with ⟨he, -⟩ | ⟨-, ⟨e, -, hr, -⟩ | ⟨-, hr, -⟩ | ⟨-, attempts, as, ha, ht⟩⟩
  · exact absurd he (ne_nil_of_isTaskFor hne htasks)
  · cases hr
  · cases hr
  · have hall : Deployer.Attempts d ([] ++ contracts) tasks attempts (.ok results) as := by
      rw [hs] at ha
      exact ha
    obtain ⟨placed, has, hstrip, hcalls, hresults, hplaced⟩ := Deployer.attempts_place hall hn htasks
    -- so the check of the connection is among the calls
    have hplaced_ne : placed ≠ [] := by
      rintro rfl
      cases contracts with
      | nil => exact hne rfl
      | cons q contracts => cases hstrip
    refine ⟨placed, attempts.flatMap (·.lines), ?_, hstrip, hresults, hplaced⟩
    rw [ht, has, callsFor, List.isEmpty_eq_false_iff.mpr hplaced_ne, List.flatMap_def, hcalls,
      ← List.flatMap_def]
    rfl

structure Placed (d : Deployer) (args : Json CodePoints) (contracts : Artifacts) (placed : List Placement)
    (before after : State) : Prop where
  contracts_eq : Artifacts.withoutAddresses (placed.map (·.entry)) = contracts.withoutAddresses
  exchanges : after.exchanges = before.exchanges ++ callsFor placed
  disk : after.disk = before.disk
  log : ∃ lines, after.log = before.log ++ lines ++ placed.map fun p => reportLine p.result
  placements : ∀ p ∈ placed, p.IsPlacedBy d ∧ argumentsFor args p.name = .ok p.args

theorem runs_deployContracts_ok {deployer : Option Deployer} {args : Json CodePoints}
    {contracts result : Artifacts} (hn : contracts.keys.Nodup)
    (hd : contracts.deployable = contracts)
    (h : Runs (deployContracts services settings deployer args contracts) s (.ok result) t) :
    ∃ placed, result = placed.map (·.entry) ∧
      Placed (chosenDeployer settings deployer) args contracts placed s t := by
  unfold deployContracts at h
  rw [runs_modify_bind] at h
  dsimp only at h
  split at h
  · next hne =>
    obtain ⟨d, u, hthe, h⟩ := runs_bind_ok.mp h
    obtain ⟨rfl, he, hl, hdisk, hc⟩ := runs_theDeployer_ok hthe
    obtain ⟨tasks, v, hplan, h⟩ := runs_bind_ok.mp h
    obtain ⟨hp, hv⟩ := runs_ofExcept.mp hplan
    obtain ⟨results, w, hrun, h⟩ := runs_bind_ok.mp h
    obtain ⟨_, x, hreport, h⟩ := runs_bind_ok.mp h
    rw [runs_get_bind, runs_pure] at h
    obtain ⟨hr, ht⟩ := h
    have htasks := Deployment.plan_eq_ok.mp hp.symm
    rw [hd] at htasks
    have hcontracts : contracts ≠ [] := by simpa using hne
    have hv' : v.contracts = contracts := by rw [hv, hc]
    obtain ⟨placed, lines, hw, hstrip, hresults, hplaced⟩ :=
      runs_run_ok hcontracts hn hv' htasks hrun
    have hx := runs_report hreport
    refine ⟨placed, ?_, hstrip, ?_, ?_, ?_, hplaced⟩
    · have hresult : result = x.contracts := Except.ok.inj hr
      rw [hresult, hx, hw]
      rfl
    · have hexchanges : x.exchanges = w.exchanges := by rw [hx]; rfl
      rw [ht, hexchanges, hw, Deployer.exchanges_extend, hv, he]
      rfl
    · rw [ht, hx, hw, hv]
      exact hdisk
    · refine ⟨lines, ?_⟩
      rw [ht, hx, hw, hv, hresults, List.map_map]
      show u.log ++ _ ++ _ = _
      rw [hl]
      rfl
  · next he =>
    have hcontracts : contracts = [] := by simpa using he
    rw [runs_get_bind, runs_pure] at h
    obtain ⟨hr, rfl⟩ := h
    cases hr
    subst hcontracts
    exact ⟨[], rfl, rfl, by simp [callsFor]; rfl, rfl, ⟨[], by simp⟩, by simp⟩

end Build

end ContractBindings
