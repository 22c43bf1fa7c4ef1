import ContractBindings.Session

/-! # Compiling a source

A compiler is looked for where the settings say, or installed, or found on the search path. It leaves
its output under a fixed name, which is then changed to the name of the source.
-/

namespace ContractBindings.Compilation

open Session

def outputName : String := "combined.json"

/-! ## Finding a compiler -/

def findAt (path : String) : Session String := do
  if ← ofFiles ((← get).disk.isFile? (toString (Files.Path.ofString path))) then
    return path
  let failure := Error.noCompilerAt path
  log .error failure.message
  throw failure

def executable (tools : Toolchain) (version : Option String) : Session String := do
  record (.tool (.executable version))
  ofExcept (tools.executable version)

def install (tools : Toolchain) (version : String) : Session String := do
  try
    record (.tool (.install version))
    ofExcept (tools.install version)
    executable tools (some version)
  catch e =>
    let failure := Error.installFailed version e
    log .error failure.message
    throw failure

/-- Any compiler: the one on the search path, or one that is installed. -/
def findAny (tools : Toolchain) : Session String := do
  record (.tool (.onPath "solc"))
  if let some path := (tools.onPath "solc").filter (· != "") then
    return path
  try
    executable tools none
  catch
    | .notInstalled _ =>
      log .error Error.noCompiler.message
      throw .noCompiler
    | e => throw e

def find (tools : Toolchain) (version path : Option String) : Session String :=
  match path.filter (· != ""), version.filter (· != "") with
  | some path, _ => findAt path
  | none, some version => install tools version
  | none, none => findAny tools

/-! ## Running it -/

def runCompiler (tools : Toolchain) (job : CompileJob) : Session Unit := do
  record (.tool (.compile job))
  match tools.compile job with
  | .ok none => return
  | .ok (some bytes) => onDisk (·.write (Files.inside job.directory outputName) bytes)
  | .error (.compilerFailed report) =>
    log .error report.complaint
    throw (.compilation report.complaint)
  | .error e => throw e

def rename (source target : Files.Path) : Session Unit := do
  try
    onDisk (·.move (toString source) (toString target))
  catch
    | .file (.refused cause path target) =>
      let failure := Files.Failure.refused cause path target
      log .error ("could not rename " ++ outputName ++ ": " ++ failure.message)
      throw (.file failure)
    | e => throw e

/-- Compile a source and leave the output in a directory under the source's name. -/
def compile (tools : Toolchain) (source directory : Files.Path) (compiler : String)
    (remappings : List String) (optimize : Bool) : Session Files.Path := do
  ensureDirectories directory
  runCompiler tools {
    source := toString source
    directory := toString directory
    remappings
    optimize
    compiler }
  log .success ("compilation of " ++ toString source ++ " succeed")
  let target := directory.join (source.stem ++ ".json")
  rename (directory.join outputName) target
  return target

def readOutput (path : String) : Session Json := do
  try
    readJson path
  catch
    | .file (.refused cause refused target) =>
      let failure := Files.Failure.refused cause refused target
      log .error ("could not read " ++ path ++ ": " ++ failure.message)
      throw (.file failure)
    | e => throw e

end ContractBindings.Compilation
