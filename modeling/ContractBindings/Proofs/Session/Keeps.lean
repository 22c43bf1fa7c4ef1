import ContractBindings.Build
import ContractBindings.Proofs.Session.Runs

/-!
# What stages keep

A stage keeps a view of the state if none of its runs changes it, failed runs
included. What the parts of a stage keep, the stage keeps. Only deployments
make calls on the chain: every other stage keeps the calls made so far.
-/

namespace ContractBindings

def Keeps {α β : Type} (view : State → β) (work : Session α) : Prop :=
  ∀ (s t : State) (r : Except Error α), Runs work s r t → view t = view s

section
variable {α β γ : Type} {view : State → γ}

theorem keeps_pure (a : α) : Keeps view (pure a) := by
  intro s t r h
  rw [(runs_pure.mp h).2]

theorem keeps_throw (e : Error) : Keeps view (throw e : Session α) := by
  intro s t r h
  rw [(runs_throw.mp h).2]

theorem keeps_ofExcept (o : Except Error α) : Keeps view (ofExcept o : Session α) := by
  intro s t r h
  rw [(runs_ofExcept.mp h).2]

theorem keeps_get : Keeps view (get : Session State) := by
  intro s t r h
  rw [(runs_get.mp h).2]

theorem keeps_modify {f : State → State} (hf : ∀ s, view (f s) = view s) :
    Keeps view (modify f : Session PUnit) := by
  intro s t r h
  rw [(runs_modify.mp h).2, hf]

theorem keeps_bind {x : Session α} {f : α → Session β} (hx : Keeps view x)
    (hf : ∀ a, Keeps view (f a)) : Keeps view (x >>= f) := by
  intro s t r h
  rcases runs_bind.mp h with ⟨e, h, -⟩ | ⟨a, u, h, h'⟩
  · exact hx _ _ _ h
  · exact (hf a _ _ _ h').trans (hx _ _ _ h)

theorem keeps_tryCatch {x : Session α} {handler : Error → Session α} (hx : Keeps view x)
    (hh : ∀ e, Keeps view (handler e)) : Keeps view (tryCatch x handler) := by
  intro s t r h
  rcases runs_tryCatch.mp h with ⟨a, h, -⟩ | ⟨e, u, h, h'⟩
  · exact hx _ _ _ h
  · exact (hh e _ _ _ h').trans (hx _ _ _ h)

end

/-! ## Stages that look something up -/

structure IsAside {β : Type} (view : State → β) : Prop where
  log : ∀ s log, view { s with log } = view s
  events : ∀ s e, (∀ x, e ≠ .chain x) → view { s with events := s.events ++ [e] } = view s

theorem isAside_exchanges : IsAside State.exchanges where
  log _ _ := rfl
  events s e he := by
    cases e with
    | chain x => exact absurd rfl (he x)
    | tool c => simp [State.exchanges]
    | node url => simp [State.exchanges]

theorem isAside_disk : IsAside State.disk := ⟨fun _ _ => rfl, fun _ _ _ => rfl⟩

section
open Session

variable {α γ : Type} {view : State → γ} (hv : IsAside view)

theorem keeps_ofFiles (o : Except Files.Failure α) : Keeps view (ofFiles o) := keeps_ofExcept _

theorem keeps_readText (path : String) : Keeps view (readText path) := by
  unfold readText
  apply keeps_bind keeps_get
  intro _
  apply keeps_bind (keeps_ofFiles _)
  intro bytes
  split
  · exact keeps_pure _
  · exact keeps_throw _

theorem keeps_readJson {σ : Type} [JsonString σ] [DecidableEq σ] (path : String) :
    Keeps view (readJson path : Session (Json σ)) :=
  keeps_bind (keeps_readText path) fun _ => keeps_ofExcept _

include hv

theorem keeps_log (level : Level) (message : String) : Keeps view (log level message) :=
  keeps_modify fun s => hv.log s _

theorem keeps_log_throw (level : Level) (message : String) (e : Error) :
    Keeps view (log level message >>= fun _ => throw e : Session α) :=
  keeps_bind (keeps_log hv level message) fun _ => keeps_throw e

theorem keeps_tool (c : ToolCall) : Keeps view (record (.tool c)) :=
  keeps_modify fun s => hv.events s _ fun _ h => Event.noConfusion h

theorem keeps_node (url : String) : Keeps view (record (.node url)) :=
  keeps_modify fun s => hv.events s _ fun _ h => Event.noConfusion h

theorem keeps_ofLogged (work : Extraction.Logged α) : Keeps view (ofLogged work) :=
  keeps_bind (keeps_modify fun s => hv.log s _) fun _ => keeps_ofExcept _

theorem keeps_readOutput (path : String) : Keeps view (Compilation.readOutput path) := by
  unfold Compilation.readOutput
  apply keeps_tryCatch (keeps_readJson path)
  intro e
  split
  · exact keeps_log_throw hv _ _ _
  · exact keeps_throw _

/-! ### Finding a compiler -/

theorem keeps_findAt (path : String) : Keeps view (Compilation.findAt path) := by
  unfold Compilation.findAt
  apply keeps_bind keeps_get
  intro s
  apply keeps_bind (keeps_ofFiles _)
  intro b
  split
  · exact keeps_pure _
  · exact keeps_log_throw hv _ _ _

theorem keeps_executable (tools : Toolchain) (version : Option String) :
    Keeps view (Compilation.executable tools version) :=
  keeps_bind (keeps_tool hv _) fun _ => keeps_ofExcept _

theorem keeps_install (tools : Toolchain) (version : String) :
    Keeps view (Compilation.install tools version) := by
  unfold Compilation.install
  refine keeps_tryCatch ?_ fun e => keeps_log_throw hv _ _ _
  exact keeps_bind (keeps_tool hv _) fun _ =>
    keeps_bind (keeps_ofExcept _) fun _ => keeps_executable hv tools _

theorem keeps_findAny (tools : Toolchain) : Keeps view (Compilation.findAny tools) := by
  unfold Compilation.findAny
  apply keeps_bind (keeps_tool hv _)
  intro _
  split
  · exact keeps_pure _
  · apply keeps_tryCatch (keeps_executable hv tools none)
    intro e
    split
    · exact keeps_log_throw hv _ _ _
    · exact keeps_throw _

theorem keeps_find (tools : Toolchain) (version path : Option String) :
    Keeps view (Compilation.find tools version path) := by
  unfold Compilation.find
  split
  · exact keeps_findAt hv _
  · exact keeps_install hv tools _
  · exact keeps_findAny hv tools

end

/-! ## Settings -/

section
variable {γ : Type} {view : State → γ}
  (hv : ∀ (s : State) (environment : Environment), view { s with environment } = view s)
include hv

theorem keeps_loadFile (path : Option String) : Keeps view (Settings.loadFile path) := by
  unfold Settings.loadFile
  apply keeps_bind keeps_get
  intro s
  split
  · exact keeps_pure _
  · dsimp only
    split
    · apply keeps_bind (keeps_readText _)
      intro _
      exact keeps_bind (keeps_modify fun s => hv s _) fun _ => keeps_ofExcept _
    · exact keeps_pure _

theorem keeps_load (path : Option String) : Keeps view (Settings.load path) := by
  unfold Settings.load
  exact keeps_bind (keeps_loadFile hv path) fun _ => keeps_bind keeps_get fun _ => keeps_ofExcept _

end

/-! ## Stages on the disk -/

section
variable {γ : Type} {view : State → γ} (hv : ∀ (s : State) (disk : Files.Disk), view { s with disk } = view s)
include hv

theorem keeps_onDisk (work : Files.Disk → Except Files.Failure Files.Disk) :
    Keeps view (Session.onDisk work) := by
  unfold Session.onDisk
  exact keeps_bind keeps_get fun _ => keeps_bind (keeps_ofFiles _) fun _ => keeps_modify fun s => hv s _

theorem keeps_ensureDirectories (p : Files.Path) : Keeps view (Session.ensureDirectories p) := by
  unfold Session.ensureDirectories
  exact keeps_bind keeps_get fun _ => keeps_bind (keeps_modify fun s => hv s _) fun _ => keeps_ofFiles _

theorem keeps_write (as : Artifacts) (directory : Files.Path) (stem : String) (source : Option String)
    (contexts : Hooks.Contexts) : Keeps view (Publication.write as directory stem source contexts) := by
  unfold Publication.write
  apply keeps_bind (keeps_ensureDirectories hv _)
  intro _
  apply keeps_bind (keeps_ofExcept _)
  intro _
  exact keeps_bind (keeps_onDisk hv _) fun _ => keeps_bind (keeps_onDisk hv _) fun _ => keeps_pure _

end

/-! ## Stages off the chain -/

abbrev OffChain {α : Type} (work : Session α) : Prop := Keeps State.exchanges work

namespace OffChain

open Session

theorem onDisk (work : Files.Disk → Except Files.Failure Files.Disk) : OffChain (onDisk work) :=
  keeps_onDisk (fun _ _ => rfl) work

theorem ensureDirectories (p : Files.Path) : OffChain (ensureDirectories p) :=
  keeps_ensureDirectories (fun _ _ => rfl) p

/-! ### Settings -/

theorem load (path : Option String) : OffChain (Settings.load path) := keeps_load (fun _ _ => rfl) path

/-! ### Compiling -/

theorem runCompiler (tools : Toolchain) (job : CompileJob) :
    OffChain (Compilation.runCompiler tools job) := by
  unfold Compilation.runCompiler
  apply keeps_bind (keeps_tool isAside_exchanges _)
  intro _
  split
  · exact keeps_pure _
  · exact onDisk _
  · exact keeps_log_throw isAside_exchanges _ _ _
  · exact keeps_throw _

theorem rename (source target : Files.Path) : OffChain (Compilation.rename source target) := by
  unfold Compilation.rename
  apply keeps_tryCatch (onDisk _)
  intro e
  split
  · exact keeps_log_throw isAside_exchanges _ _ _
  · exact keeps_throw _

theorem compile (tools : Toolchain) (source directory : Files.Path) (compiler : String)
    (remappings : List String) (optimize : Bool) :
    OffChain (Compilation.compile tools source directory compiler remappings optimize) := by
  unfold Compilation.compile
  apply keeps_bind (ensureDirectories _)
  intro _
  apply keeps_bind (runCompiler tools _)
  intro _
  apply keeps_bind (keeps_log isAside_exchanges _ _)
  intro _
  exact keeps_bind (rename _ _) fun _ => keeps_pure _

theorem compileContracts (services : Services) (settings : Settings)
    (source directory : Files.Path) :
    OffChain (Build.compileContracts services settings source directory) := by
  unfold Build.compileContracts
  apply keeps_bind (keeps_find isAside_exchanges _ _ _)
  intro _
  apply keeps_bind (compile _ _ _ _ _ _)
  intro _
  apply keeps_bind (keeps_readOutput isAside_exchanges _)
  intro _
  apply keeps_bind (keeps_ofLogged isAside_exchanges _)
  intro _
  exact keeps_bind (keeps_log isAside_exchanges _ _) fun _ => keeps_pure _

/-! ### Writing the modules -/

theorem write (as : Artifacts) (directory : Files.Path) (stem : String) (source : Option String)
    (contexts : Hooks.Contexts) :
    OffChain (Publication.write as directory stem source contexts) :=
  keeps_write (fun _ _ => rfl) as directory stem source contexts

end OffChain

end ContractBindings
