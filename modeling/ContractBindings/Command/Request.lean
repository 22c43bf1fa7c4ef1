import ContractBindings.Text.Split

/-! # Command lines

What a command line asks for. Options stand before or after the source, `--` ends them, and the last
of several values counts. A value follows its option, or stands in the same word: after an equals sign
for a long option, at once for a short one.
-/

namespace ContractBindings.Command

inductive Flag where
  | out
  | rpc
  | compilerVersion
  | constructorArgs
  | envFile
  | help
deriving DecidableEq, Repr

/-- The options of a command by their long names, and those by one letter. -/
structure Flags where
  long : List (String × Flag)
  short : List (Char × Flag)

def Flags.outer : Flags := ⟨[("--help", .help)], []⟩

def Flags.compile : Flags := ⟨[
  ("--out", .out), ("--rpc", .rpc), ("--solc-version", .compilerVersion),
  ("--constructor-args", .constructorArgs), ("--env-file", .envFile), ("--help", .help)],
  [('o', .out)]⟩

def Flags.check : Flags := ⟨[("--env-file", .envFile), ("--help", .help)], []⟩

/-- The words of a command line, sorted: the options with their values, and the other words. -/
structure Sorted where
  values : List (Flag × String) := []
  help : Bool := false
  words : List String := []

def Sorted.add (s : Sorted) (f : Flag) (value : String) : Sorted :=
  { s with values := (f, value) :: s.values }

def Sorted.addWord (s : Sorted) (w : String) : Sorted := { s with words := w :: s.words }

def Sorted.value? (s : Sorted) (f : Flag) : Option String :=
  (s.values.filterMap fun (g, v) => if g = f then some v else none).getLast?

/-- The option that a word names, and the value that stands in the same word. -/
def Flags.match? (fs : Flags) (word : String) : Option (Flag × Option String) :=
  let (name, value) :=
    match Text.cutFirst? '=' word.toList with
    | none => (word, none)
    | some (name, value) => (String.ofList name, some (String.ofList value))
  match fs.long.lookup name, word.toList with
  | some f, _ => some (f, value)
  | none, '-' :: '-' :: _ => none
  | none, '-' :: letter :: rest =>
    (fs.short.lookup letter).map fun f =>
      (f, if rest.isEmpty then none else some (String.ofList rest))
  | none, _ => none

def looksLikeOption (word : String) : Bool :=
  match word.toList with
  | '-' :: _ :: _ => true
  | _ => false

/-- Sort the words of a line, if its options can be understood. A line whose options all stand in front
ends with its first other word. -/
def Flags.sort (fs : Flags) (optionsInFront : Bool) : List String → Option Sorted
  | [] => some {}
  | word :: rest =>
    if word = "--" then some { words := rest }
    else if looksLikeOption word then
      match fs.match? word, rest with
      | none, _ => none
      | some (.help, some _), _ => none
      | some (.help, none), rest => do return { ← fs.sort optionsInFront rest with help := true }
      | some (f, some value), rest => do return (← fs.sort optionsInFront rest).add f value
      | some (f, none), value :: rest => do return (← fs.sort optionsInFront rest).add f value
      | some (_, none), [] => none
    else if optionsInFront then some { words := word :: rest }
    else do return (← fs.sort optionsInFront rest).addWord word

structure CompileRequest where
  source : String
  out : String
  rpc : Option String
  compilerVersion : Option String
  constructorArgs : Option String
  envFile : Option String
deriving DecidableEq, Repr

inductive Request where
  | help
  | compile (r : CompileRequest)
  | check (envFile : Option String)
deriving DecidableEq, Repr

def compileRequest (s : Sorted) : Option Request :=
  if s.help then some .help
  else
    match s.words with
    | [source] => some (.compile {
        source
        out := (s.value? .out).getD "."
        rpc := s.value? .rpc
        compilerVersion := s.value? .compilerVersion
        constructorArgs := s.value? .constructorArgs
        envFile := s.value? .envFile })
    | _ => none

def checkRequest (s : Sorted) : Option Request :=
  if s.help then some .help
  else if s.words.isEmpty then some (.check (s.value? .envFile))
  else none

def Request.ofArgs (args : List String) : Option Request := do
  let outer ← Flags.outer.sort true args
  if outer.help then return .help
  match outer.words with
  | "compile" :: rest => compileRequest (← Flags.compile.sort false rest)
  | "check" :: rest => checkRequest (← Flags.check.sort false rest)
  | _ => none

end ContractBindings.Command
