import ContractBindings.Proofs.Build.TwoOutputs

/-!
# Failures of a build

A stage that fails may write error lines before it does, each about the error
that it ends with and in words of its own (`Candid`). So the line at the end of
a failed build is like none before it, and a build that returns has no error
line. Settings are loaded before all that: a failure to load them leaves no
line at all.
-/

namespace ContractBindings

open Session

variable {α β : Type} {s t : State}

/-! ## Stages that tell of their failure -/

def Build.failureWords : String := "compilation failed: "

def Build.failureLine (e : Error) : LogLine := ⟨.error, failureWords ++ e.message⟩

/-- A line about an error in other words than those at the end of a build. -/
def TellsOf (e : Error) (l : LogLine) : Prop :=
  ∃ words, words ≠ Build.failureWords ∧ l.message = words ++ e.message

theorem TellsOf.ne_failureLine {e : Error} {l : LogLine} (h : TellsOf e l) : l ≠ Build.failureLine e := by
  rintro rfl
  obtain ⟨words, hne, hm⟩ := h
  exact hne ((String.append_left_inj _).mp hm).symm

/-- Each error line of a stage tells of the error that the stage ends with. -/
def Candid (work : Session α) : Prop :=
  ∀ ⦃s t : State⦄ ⦃r : Except Error α⦄, Runs work s r t →
    ∃ lines, t.log = s.log ++ lines ∧ ∀ l ∈ lines, l.level = .error → ∃ e, r = .error e ∧ TellsOf e l

theorem candid_of_keeps {work : Session α} (h : Keeps State.log work) : Candid work :=
  fun s t r hr => ⟨[], by rw [h s t r hr, List.append_nil], by simp⟩

theorem candid_pure (a : α) : Candid (pure a) := candid_of_keeps (keeps_pure a)

theorem candid_throw (e : Error) : Candid (throw e : Session α) := candid_of_keeps (keeps_throw e)

theorem candid_get : Candid (get : Session State) := candid_of_keeps keeps_get

theorem candid_ofExcept (o : Except Error α) : Candid (ofExcept o : Session α) :=
  candid_of_keeps (keeps_ofExcept o)

theorem candid_record (e : Event) : Candid (record e) := candid_of_keeps (keeps_modify fun _ => rfl)

theorem candid_log {level : Level} (hl : level ≠ .error) (message : String) :
    Candid (log level message) := by
  intro s t r hr
  obtain ⟨-, rfl⟩ := runs_modify.mp hr
  refine ⟨_, rfl, fun l hm he => absurd he ?_⟩
  rw [List.mem_singleton.mp hm]
  exact hl

theorem candid_log_throw {words : String} (hw : words ≠ Build.failureWords) (e : Error) :
    Candid (log .error (words ++ e.message) >>= fun _ => throw e : Session α) := by
  intro s t r hr
  rw [runs_log_bind, runs_throw] at hr
  obtain ⟨rfl, rfl⟩ := hr
  refine ⟨_, rfl, fun l hm _ => ⟨e, rfl, words, hw, ?_⟩⟩
  rw [List.mem_singleton.mp hm]

/-- A line that is the message of the error itself. -/
theorem candid_complaint (e : Error) : Candid (log .error e.message >>= fun _ => throw e : Session α) := by
  have hplain : "" ++ e.message = e.message := String.empty_append
  rw [← hplain]
  exact candid_log_throw (by decide) e

theorem candid_bind {x : Session α} {f : α → Session β} (hx : Candid x) (hf : ∀ a, Candid (f a)) :
    Candid (x >>= f) := by
  intro s t r hr
  rcases runs_bind.mp hr with ⟨e, h, rfl⟩ | ⟨a, u, h, h'⟩
  · obtain ⟨lines, ht, hl⟩ := hx h
    refine ⟨lines, ht, fun l hm he => ?_⟩
    obtain ⟨e', heq, htells⟩ := hl l hm he
    cases heq
    exact ⟨e, rfl, htells⟩
  · obtain ⟨lines, hu, hl⟩ := hx h
    obtain ⟨lines', ht, hl'⟩ := hf a h'
    refine ⟨lines ++ lines', by rw [ht, hu, List.append_assoc], fun l hm he => ?_⟩
    rcases List.mem_append.mp hm with hm | hm
    · -- the first part succeeded, so it wrote no error line
      obtain ⟨_, heq, -⟩ := hl l hm he
      cases heq
    · exact hl' l hm he

/-- A handler may throw another error, since the work in front of it writes no line. -/
theorem candid_tryCatch {x : Session α} {handler : Error → Session α} (hx : Keeps State.log x)
    (hh : ∀ e, Candid (handler e)) : Candid (tryCatch x handler) := by
  intro s t r hr
  rcases runs_tryCatch.mp hr with ⟨a, h, rfl⟩ | ⟨e, u, h, h'⟩
  · exact ⟨[], by rw [hx _ _ _ h, List.append_nil], by simp⟩
  · rw [← hx _ _ _ h]
    exact hh e h'

/-! ## The stages of a build -/

namespace Compilation

theorem candid_findAt (path : String) : Candid (findAt path) := by
  unfold findAt
  apply candid_bind candid_get
  intro _
  apply candid_bind (candid_ofExcept _)
  intro found
  split
  · exact candid_pure _
  · exact candid_complaint (.noCompilerAt path)

theorem keeps_log_executable (tools : Toolchain) (version : Option String) :
    Keeps State.log (executable tools version) :=
  keeps_bind (keeps_modify fun _ => rfl) fun _ => keeps_ofExcept _

theorem candid_install (tools : Toolchain) (version : String) : Candid (install tools version) := by
  unfold install
  refine candid_tryCatch ?_ fun e => candid_complaint (.installFailed version e)
  exact keeps_bind (keeps_modify fun _ => rfl) fun _ =>
    keeps_bind (keeps_ofExcept _) fun _ => keeps_log_executable tools _

theorem candid_findAny (tools : Toolchain) : Candid (findAny tools) := by
  unfold findAny
  apply candid_bind (candid_record _)
  intro _
  split
  · exact candid_pure _
  · apply candid_tryCatch (keeps_log_executable tools none)
    intro e
    split
    · exact candid_complaint .noCompiler
    · exact candid_throw _

theorem candid_find (tools : Toolchain) (version path : Option String) :
    Candid (find tools version path) := by
  unfold find
  split
  · exact candid_findAt _
  · exact candid_install tools _
  · exact candid_findAny tools

theorem candid_runCompiler (tools : Toolchain) (job : CompileJob) : Candid (runCompiler tools job) := by
  unfold runCompiler
  apply candid_bind (candid_record _)
  intro _
  split
  · exact candid_pure _
  · exact candid_of_keeps (keeps_onDisk (fun _ _ => rfl) _)
  · exact candid_complaint (.compilation _)
  · exact candid_throw _

theorem candid_rename (source target : Files.Path) : Candid (rename source target) := by
  unfold rename
  apply candid_tryCatch (keeps_onDisk (fun _ _ => rfl) _)
  intro e
  split
  · exact candid_log_throw (by decide) (.file _)
  · exact candid_throw _

theorem candid_compile (tools : Toolchain) (source directory : Files.Path) (compiler : String)
    (remappings : List String) (optimize : Bool) :
    Candid (compile tools source directory compiler remappings optimize) := by
  unfold compile
  apply candid_bind (candid_of_keeps (keeps_ensureDirectories (fun _ _ => rfl) _))
  intro _
  apply candid_bind (candid_runCompiler tools _)
  intro _
  apply candid_bind (candid_log (by decide) _)
  intro _
  exact candid_bind (candid_rename _ _) fun _ => candid_pure _

theorem candid_readOutput (path : String) : Candid (readOutput path) := by
  have hwords : "could not read " ++ path ++ ": " ≠ Build.failureWords := by
    intro h
    have hthird := congrArg (fun words => words.toList[2]?) h
    rw [String.toList_append, String.toList_append] at hthird
    cases hthird
  unfold readOutput
  apply candid_tryCatch (keeps_readJson path)
  intro e
  split
  · exact candid_log_throw hwords (.file _)
  · exact candid_throw _

end Compilation

/-! ### Extracting the contracts -/

namespace Extraction

def OnlyWarns (work : Logged α) : Prop :=
  ∀ ⦃lines lines' : List LogLine⦄ ⦃r : Except Error α⦄, Runs work lines r lines' →
    (∀ l ∈ lines, l.level = .warning) → ∀ l ∈ lines', l.level = .warning

theorem onlyWarns_pure (a : α) : OnlyWarns (pure a) := by
  intro lines lines' r hr hl
  rw [(runs_pure.mp hr).2]
  exact hl

theorem onlyWarns_liftM (o : Except Error α) : OnlyWarns (liftM o) := by
  intro lines lines' r hr hl
  rw [(runs_liftM.mp hr).2]
  exact hl

theorem onlyWarns_bind {x : Logged α} {f : α → Logged β} (hx : OnlyWarns x) (hf : ∀ a, OnlyWarns (f a)) :
    OnlyWarns (x >>= f) := by
  intro lines lines' r hr hl
  rcases runs_bind.mp hr with ⟨e, h, -⟩ | ⟨a, u, h, h'⟩
  · exact hx h hl
  · exact hf a h' (hx h hl)

theorem onlyWarns_addContract (found : Artifacts) (key : String) (contract : Json) :
    OnlyWarns (addContract found key contract) := by
  unfold addContract
  split
  · exact onlyWarns_pure _
  · dsimp only
    apply onlyWarns_bind (onlyWarns_liftM _)
    intro artifact
    split
    · next old _ =>
      refine onlyWarns_bind ?_ fun _ => onlyWarns_pure _
      intro lines lines' r hr hl l hm
      rw [(runs_modify.mp hr).2] at hm
      rcases List.mem_append.mp hm with hm | hm
      · exact hl l hm
      · rw [List.mem_singleton.mp hm]
        rfl
    · exact onlyWarns_pure _

theorem onlyWarns_foldlM : ∀ (contracts : List (String × Json)) (found : Artifacts),
    OnlyWarns (contracts.foldlM (fun found (key, contract) => addContract found key contract) found)
  | [], found => onlyWarns_pure found
  | (key, contract) :: contracts, found => by
    rw [List.foldlM_cons]
    exact onlyWarns_bind (onlyWarns_addContract found key contract) (onlyWarns_foldlM contracts)

theorem onlyWarns_run (combined : Json) : OnlyWarns (run combined) := by
  unfold run
  apply onlyWarns_bind (onlyWarns_liftM _)
  intro contracts
  dsimp only
  split
  · exact onlyWarns_bind (onlyWarns_liftM _) fun fields => onlyWarns_foldlM fields []
  · rw [pure_bind]
    exact onlyWarns_foldlM [] []

end Extraction

theorem candid_ofLogged {work : Extraction.Logged α} (h : Extraction.OnlyWarns work) :
    Candid (ofLogged work) := by
  intro s t r hr
  obtain ⟨o, lines, hw⟩ := runs_total work []
  unfold ofLogged at hr
  rw [show work.run [] = (o, lines) from hw] at hr
  dsimp only at hr
  rw [runs_modify_bind, runs_ofExcept] at hr
  obtain ⟨-, rfl⟩ := hr
  refine ⟨lines, rfl, fun l hm he => ?_⟩
  rw [h hw (by simp) l hm] at he
  cases he

/-! ### Deploying and writing -/

theorem Deployer.candid_run (d : Deployer) (chain : Chain) (tasks : List Task) :
    Candid (d.run chain tasks) := by
  intro s t r hr
  have hunreachable : TellsOf .unreachable ⟨.error, Error.unreachable.message⟩ := ⟨"", by decide, rfl⟩
  rcases runs_run hr with ⟨-, -, rfl⟩ | ⟨-, ⟨e, -, -, rfl⟩ | ⟨-, rfl, rfl⟩ | ⟨-, attempts, as, ha, rfl⟩⟩
  · exact ⟨[], (List.append_nil _).symm, by simp⟩
  · exact ⟨[], (List.append_nil _).symm, by simp⟩
  · exact ⟨_, rfl, fun l hm _ => ⟨_, rfl, List.mem_singleton.mp hm ▸ hunreachable⟩⟩
  · refine ⟨_, rfl, fun l hm he => ?_⟩
    cases r with
    | ok results =>
      obtain ⟨-, -, hquiet⟩ := ha.concludes
      exact absurd he (hquiet l hm)
    | error e =>
      obtain ⟨before, last, rest, -, -, -, -, lines, hlines, hquiet⟩ := ha.concludes
      rw [hlines] at hm
      rcases List.mem_append.mp hm with hm | hm
      · exact absurd he (hquiet l hm)
      · rw [List.mem_singleton.mp hm]
        refine ⟨e, rfl, "deployment of " ++ last.task.name ++ " failed: ", ?_, rfl⟩
        intro h
        have hfirst := congrArg (fun words => words.toList[0]?) h
        rw [String.toList_append, String.toList_append] at hfirst
        cases hfirst

namespace Build

variable {services : Services} {settings : Settings} {request : BuildRequest}

theorem candid_theDeployer (deployer : Option Deployer) : Candid (theDeployer settings deployer) := by
  unfold theDeployer
  split
  · exact candid_pure _
  · exact candid_bind (candid_record _) fun _ => candid_pure _

theorem not_runs_forM_report_error : ∀ {results : List Deployed} {s t : State} {e : Error},
    ¬Runs (results.forM report) s (.error e) t
  | [], s, t, e, h => by
    cases (runs_pure.mp h).1
  | x :: results, s, t, e, h => by
    have hrest : Runs (report x >>= fun _ => results.forM report) s (.error e) t := h
    exact not_runs_forM_report_error (runs_log_bind.mp hrest)

theorem candid_forM_report (results : List Deployed) : Candid (results.forM report) := by
  intro s t r hr
  rw [runs_report hr]
  refine ⟨_, rfl, fun l hm he => ?_⟩
  obtain ⟨x, -, rfl⟩ := List.mem_map.mp hm
  cases he

theorem candid_compileContracts (source directory : Files.Path) :
    Candid (compileContracts services settings source directory) := by
  unfold compileContracts
  apply candid_bind (Compilation.candid_find _ _ _)
  intro _
  apply candid_bind (Compilation.candid_compile _ _ _ _ _ _)
  intro _
  apply candid_bind (Compilation.candid_readOutput _)
  intro combined
  apply candid_bind (candid_ofLogged (Extraction.onlyWarns_run combined))
  intro _
  exact candid_bind (candid_log (by decide) _) fun _ => candid_pure _

theorem candid_deployContracts (deployer : Option Deployer) (args : Json CodePoints) (contracts : Artifacts) :
    Candid (deployContracts services settings deployer args contracts) := by
  unfold deployContracts
  refine candid_bind (candid_of_keeps (keeps_modify ?_)) fun _ => ?_
  · exact fun _ => rfl
  dsimp only
  split
  · apply candid_bind (candid_theDeployer _)
    intro d
    apply candid_bind (candid_ofExcept _)
    intro tasks
    apply candid_bind (d.candid_run services.chain tasks)
    intro results
    apply candid_bind (candid_forM_report results)
    intro _
    exact candid_bind candid_get fun _ => candid_pure _
  · exact candid_bind candid_get fun _ => candid_pure _

theorem candid_publish (contracts : Artifacts) : Candid (publish settings request contracts) := by
  unfold publish
  apply candid_bind (candid_of_keeps (keeps_write (fun _ _ => rfl) _ _ _ _ _))
  intro _
  exact candid_bind (candid_log (by decide) _) fun _ => candid_pure _

theorem candid_stages : Candid (stages services settings request) := by
  rw [stages_eq]
  refine candid_bind (candid_bind (candid_compileContracts _ _) fun _ => ?_) candid_publish
  exact candid_deployContracts _ _ _

/-! ## A whole build -/

def compileOutput (services : Services) (settings : Settings) (request : BuildRequest) :
    Session Files.Path := do
  let compiler ← Compilation.find services.tools settings.compilerVersion settings.compilerPath
  Compilation.compile services.tools request.sourcePath request.directoryPath compiler
    settings.remappings settings.optimize

def loadOutput (services : Services) (settings : Settings) (request : BuildRequest) : Session Json := do
  Compilation.readOutput (toString (← compileOutput services settings request))

/-- Where a build can fail, from a state and with an error: one stage fails with it after those in
front of it succeeded. -/
inductive FailsAt (services : Services) (settings : Settings) (request : BuildRequest) (s : State)
    (e : Error) (t : State) : Prop
  | finding
      (h : Runs (Compilation.find services.tools settings.compilerVersion settings.compilerPath) s
        (.error e) t)
  | compiling {compiler : String} {u : State}
      (before : Runs (Compilation.find services.tools settings.compilerVersion settings.compilerPath) s
        (.ok compiler) u)
      (h : Runs (Compilation.compile services.tools request.sourcePath request.directoryPath compiler
        settings.remappings settings.optimize) u (.error e) t)
  | reading {output : Files.Path} {u : State}
      (before : Runs (compileOutput services settings request) s (.ok output) u)
      (h : Runs (Compilation.readOutput (toString output)) u (.error e) t)
  | extracting {combined : Json} {u : State}
      (before : Runs (loadOutput services settings request) s (.ok combined) u)
      (h : Runs (ofLogged (Extraction.run combined)) u (.error e) t)
  | planning {contracts : Artifacts} {u : State}
      (before : Runs (compileContracts services settings request.sourcePath request.directoryPath) s
        (.ok contracts) u)
      (h : Deployment.plan contracts request.args = .error e)
  | deploying {contracts : Artifacts} {tasks : List Task} {d : Deployer} {u v : State}
      (before : Runs (compileContracts services settings request.sourcePath request.directoryPath) s
        (.ok contracts) u)
      (chosen : Runs (theDeployer settings request.deployer) { u with contracts } (.ok d) v)
      (planned : Deployment.plan contracts request.args = .ok tasks)
      (h : Runs (d.run services.chain tasks) v (.error e) t)
  | writing {contracts : Artifacts} {u : State}
      (before : Runs (prepare services settings request) s (.ok contracts) u)
      (h : Runs (Publication.write contracts request.directoryPath request.sourcePath.stem
        (some request.sourcePath.name) settings.contexts) u (.error e) t)

theorem failsAt_compileContracts {e : Error}
    (h : Runs (compileContracts services settings request.sourcePath request.directoryPath) s
      (.error e) t) : FailsAt services settings request s e t := by
  unfold compileContracts at h
  rcases runs_bind.mp h with ⟨_, h, he⟩ | ⟨compiler, u, hfind, h⟩
  · cases he
    exact .finding h
  rcases runs_bind.mp h with ⟨_, h, he⟩ | ⟨output, v, hcompile, h⟩
  · cases he
    exact .compiling hfind h
  have houtput : Runs (compileOutput services settings request) s (.ok output) v :=
    (runs_bind_of_ok hfind).mpr hcompile
  rcases runs_bind.mp h with ⟨_, h, he⟩ | ⟨combined, w, hread, h⟩
  · cases he
    exact .reading houtput h
  rcases runs_bind.mp h with ⟨_, h, he⟩ | ⟨all, x, -, h⟩
  · cases he
    exact .extracting ((runs_bind_of_ok houtput).mpr hread) h
  · dsimp only at h
    rw [runs_log_bind] at h
    cases (runs_pure.mp h).1

theorem failsAt_deployContracts {contracts : Artifacts} {u : State} {e : Error}
    (before : Runs (compileContracts services settings request.sourcePath request.directoryPath) s
      (.ok contracts) u)
    (h : Runs (deployContracts services settings request.deployer request.args contracts) u
      (.error e) t) : FailsAt services settings request s e t := by
  unfold deployContracts at h
  rw [runs_modify_bind] at h
  dsimp only at h
  split at h
  · rcases runs_bind.mp h with ⟨_, hd, -⟩ | ⟨d, v, hd, hwith⟩
    · unfold theDeployer at hd
      split at hd
      · cases (runs_pure.mp hd).1
      · rw [runs_bind_of_ok (runs_record.mpr ⟨rfl, rfl⟩)] at hd
        cases (runs_pure.mp hd).1
    rcases runs_bind.mp hwith with ⟨_, hplan, he⟩ | ⟨tasks, w, hplan, hplanned⟩
    · cases he
      exact .planning before (runs_ofExcept.mp hplan).1.symm
    obtain ⟨hp, rfl⟩ := runs_ofExcept.mp hplan
    rcases runs_bind.mp hplanned with ⟨_, hrun, he⟩ | ⟨results, x, -, hreport⟩
    · cases he
      exact .deploying before hd hp.symm hrun
    rcases runs_bind.mp hreport with ⟨_, hfails, -⟩ | ⟨_, _, -, hget⟩
    · exact absurd hfails not_runs_forM_report_error
    · rw [runs_get_bind] at hget
      cases (runs_pure.mp hget).1
  · rw [runs_get_bind] at h
    cases (runs_pure.mp h).1

theorem failsAt_stages {e : Error} (h : Runs (stages services settings request) s (.error e) t) :
    FailsAt services settings request s e t := by
  rw [stages_eq] at h
  rcases runs_bind.mp h with ⟨_, hprepare, he⟩ | ⟨contracts, u, hprepare, hpublish⟩
  · cases he
    rcases runs_bind.mp hprepare with ⟨_, hcompile, he⟩ | ⟨contracts, u, hcompile, hdeploy⟩
    · cases he
      exact failsAt_compileContracts hcompile
    · exact failsAt_deployContracts hcompile hdeploy
  · unfold publish at hpublish
    rcases runs_bind.mp hpublish with ⟨_, hwrite, he⟩ | ⟨paths, v, -, hlog⟩
    · cases he
      exact .writing hprepare hwrite
    · dsimp only at hlog
      rw [runs_log_bind] at hlog
      cases (runs_pure.mp hlog).1

theorem keeps_log_settingsFor (request : BuildRequest) : Keeps State.log (settingsFor request) := by
  unfold settingsFor
  split
  · exact keeps_pure _
  · exact keeps_load (fun _ _ => rfl) none

/-- What the log tells of a build. If its settings cannot be loaded, it tells nothing; otherwise it ends
with a line about the failure, and that line is the only one of its kind. -/
structure Reported (services : Services) (request : BuildRequest) (s : State)
    (r : Except Error Artifacts) (t : State) : Prop where
  unloaded : ∀ e u, Runs (settingsFor request) s (.error e) u → r = .error e ∧ t.log = s.log
  failed : ∀ settings u e, Runs (settingsFor request) s (.ok settings) u → r = .error e →
    ∃ v lines, FailsAt services settings request u e v ∧
      t.log = s.log ++ lines ++ [failureLine e] ∧ failureLine e ∉ lines
  returned : ∀ contracts, r = .ok contracts → ∃ lines, t.log = s.log ++ lines ∧
    ∀ l ∈ lines, l.level ≠ .error

/-- **A failed build ends with a line about its failure**, which no line in front of it is like, and a
build that returns has no error line; but nothing is logged if the settings cannot be loaded. -/
theorem run_reported (services : Services) (request : BuildRequest) (s : State) :
    ∃ r t, Runs (run services request) s r t ∧ Reported services request s r t := by
  obtain ⟨r, t, hrun⟩ := runs_total (run services request) s
  refine ⟨r, t, hrun, ?_⟩
  rw [run_eq] at hrun
  rcases runs_bind.mp hrun with ⟨e, hload, rfl⟩ | ⟨settings, u, hload, hlogged⟩
  · have hlog := keeps_log_settingsFor request _ _ _ hload
    refine ⟨fun e' u hfail => ?_, fun settings u e' hok => ?_, fun contracts hr => ?_⟩
    · cases (runs_unique hload hfail).1
      exact ⟨rfl, hlog⟩
    · cases (runs_unique hload hok).1
    · cases hr
  have hlog := keeps_log_settingsFor request _ _ _ hload
  have hloaded : ∀ e v, ¬Runs (settingsFor request) s (.error e) v := by
    intro e v hfail
    cases (runs_unique hload hfail).1
  refine ⟨fun e v hfail => absurd hfail (hloaded e v), ?_, ?_⟩
  · rintro settings' u' e hok rfl
    obtain ⟨hs, rfl⟩ := runs_unique hload hok
    cases hs
    rcases runs_tryCatch.mp hlogged with ⟨_, -, he⟩ | ⟨e', v, hstages, hend⟩
    · cases he
    rw [runs_log_bind, runs_throw] at hend
    obtain ⟨he, rfl⟩ := hend
    cases he
    obtain ⟨lines, hv, hlines⟩ := candid_stages hstages
    refine ⟨v, lines, failsAt_stages hstages, by rw [← hlog, ← hv]; rfl, fun hm => ?_⟩
    obtain ⟨_, he, htells⟩ := hlines _ hm rfl
    cases he
    exact htells.ne_failureLine rfl
  · rintro contracts rfl
    rcases runs_tryCatch.mp hlogged with ⟨_, hstages, -⟩ | ⟨e, v, -, hend⟩
    · obtain ⟨lines, ht, hlines⟩ := candid_stages hstages
      refine ⟨lines, by rw [ht, hlog], fun l hm he => ?_⟩
      obtain ⟨_, hr, -⟩ := hlines l hm he
      cases hr
    · rw [runs_log_bind, runs_throw] at hend
      cases hend.1

/-! ### Settings that cannot be loaded -/

def wordyState : State := { emptyState with environment := [("GAS", "abc")] }

def wordyRequest : BuildRequest := { source := "Vault.sol" }

/-- With a gas limit that is no number a build fails, and the log stays empty. -/
theorem run_unreported :
    ∃ t, Runs (run vaultServices wordyRequest) wordyState (.error (.badInteger "abc")) t ∧
      (Error.badInteger "abc").message = "invalid literal for int() with base 10: 'abc'" ∧
      t.log = [] := by
  obtain ⟨r, t, hload⟩ := runs_total (settingsFor wordyRequest) wordyState
  have hr : ((settingsFor wordyRequest).run.run wordyState).1 = .error (.badInteger "abc") := by
    decide +kernel
  rw [show (settingsFor wordyRequest).run.run wordyState = (r, t) from hload] at hr
  obtain rfl : r = .error (.badInteger "abc") := hr
  refine ⟨t, ?_, by decide +kernel, keeps_log_settingsFor wordyRequest _ _ _ hload⟩
  rw [run_eq]
  exact run_bind_of_error hload

end Build

end ContractBindings
