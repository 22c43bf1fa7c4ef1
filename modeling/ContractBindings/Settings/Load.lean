import ContractBindings.Session

/-! # Loading settings

The file of variables is the one that is named, or the nearest one from the working directory upwards.
-/

namespace ContractBindings.Settings

def envFileName : String := ".env"

/-- The place of the nearest file of variables from a place upwards; the places are given by their
names in reverse. -/
def nearest? (disk : Files.Disk) : List String → Option Files.Place
  | [] => if isFileAt [envFileName] then some [envFileName] else none
  | name :: above =>
    let place := (name :: above).reverse ++ [envFileName]
    if isFileAt place then some place else nearest? disk above
where
  isFileAt (p : Files.Place) : Bool :=
    match disk.node? p with
    | some (.file _) => true
    | _ => false

def envFilePath (disk : Files.Disk) (path : Option String) : String :=
  match path.filter (· != "") with
  | some path => path
  | none =>
    match nearest? disk disk.here.reverse with
    | none => ""
    | some place => "/" ++ "/".intercalate place

def loadFile (path : Option String) : Session Unit := do
  let s ← get
  if s.environment.ignoresFiles then return
  let path := envFilePath s.disk path
  if s.disk.isFile path then
    let statements := EnvFile.statements (← Session.readText path)
    let (environment, outcome) := s.environment.complete (EnvFile.resolve s.environment statements)
    modify fun s => { s with environment }
    ofExcept outcome

def load (path : Option String) : Session Settings := do
  loadFile path
  ofExcept (ofEnvironment (← get).environment)

end ContractBindings.Settings
