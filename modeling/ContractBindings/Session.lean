import ContractBindings.Artifact
import ContractBindings.Chain
import ContractBindings.Extraction
import ContractBindings.Files.Disk
import ContractBindings.Settings.Environment
import ContractBindings.Toolchain

/-! # Sessions

The state that the stages of a run share: the disk, the variables, the contracts with their addresses,
the log, and all that was asked of the world outside. A stage that fails leaves the state as far as it
came.
-/

namespace ContractBindings

inductive Event where
  | chain (e : Exchange)
  | tool (t : ToolCall)
  | node (url : String)

structure State where
  disk : Files.Disk
  environment : Environment := []
  contracts : Artifacts := []
  log : List LogLine := []
  events : List Event := []

def State.exchanges (s : State) : List Exchange :=
  s.events.filterMap fun
    | .chain e => some e
    | _ => none

/-- A stage: it changes the state, and it gives a value or fails. -/
abbrev Session := ExceptT Error (StateM State)

namespace Session

def ofFiles {α : Type} (r : Except Files.Failure α) : Session α := ofExcept (r.mapError .file)

/-! ## Log -/

def log (level : Level) (message : String) : Session Unit :=
  modify fun s => { s with log := s.log ++ [⟨level, message⟩] }

/-- Do work that only writes log lines. -/
def ofLogged {α : Type} (work : Extraction.Logged α) : Session α := do
  let (result, lines) := work.run []
  modify fun s => { s with log := s.log ++ lines }
  ofExcept result

/-- Do work whose variables end with it. -/
def withOwnVariables {α : Type} (work : Session α) : Session α := fun s =>
  let (result, after) := work s
  (result, { after with environment := s.environment })

/-! ## The world outside -/

def record (e : Event) : Session Unit :=
  modify fun s => { s with events := s.events ++ [e] }

def ask (chain : Chain) (c : Call) : Session c.Reply := do
  let outcome := chain (← get).exchanges c
  record (.chain ⟨c, outcome⟩)
  ofExcept outcome

/-! ## Files -/

def onDisk (work : Files.Disk → Except Files.Failure Files.Disk) : Session Unit := do
  let disk ← ofFiles (work (← get).disk)
  modify fun s => { s with disk }

def ensureDirectories (p : Files.Path) : Session Unit := do
  let (disk, outcome) := (← get).disk.ensureDirectories p
  modify fun s => { s with disk }
  ofFiles outcome

/-- The characters of a text file, with its line ends unified. -/
def readText (path : String) : Session (List Char) := do
  let bytes ← ofFiles ((← get).disk.read path)
  match Text.Utf8.decode bytes with
  | .ok cs => return Text.unifyLineEnds cs
  | .error fault => throw (.badUtf8 fault)

def writeText (path text : String) : Session Unit :=
  onDisk (·.write path (Text.Utf8.encode text))

def readJson {σ : Type} [JsonString σ] [DecidableEq σ] (path : String) : Session (Json σ) := do
  ofExcept ((Json.read (← readText path)).mapError .badJson)

end Session

end ContractBindings
