import ContractBindings.Files.Failure
import ContractBindings.Files.Path
import ContractBindings.Text.Utf8

/-! # A disk

Directories and files by their place, which is the list of names from the root to them, and the place
of the working directory. An operation takes the text of a path, finds its place, and fails as a file
system without links does.
-/

namespace ContractBindings.Files

abbrev Place := List String

inductive Node where
  | directory
  | file (bytes : List UInt8)
deriving DecidableEq, Repr

/-- A disk: what is at each place but the root, and the working directory. -/
structure Disk where
  nodes : List (Place × Node)
  here : Place
deriving Repr

namespace Disk

def node? (d : Disk) (p : Place) : Option Node :=
  if p = [] then some .directory else d.nodes.lookup p

def put (d : Disk) (p : Place) (n : Node) : Disk :=
  { d with nodes := d.nodes.filter (·.1 != p) ++ [(p, n)] }

theorem node?_put_self (d : Disk) {p : Place} (h : p ≠ []) (n : Node) :
    (d.put p n).node? p = some n := by
  have hf : (d.nodes.filter (·.1 != p)).lookup p = none := by
    simp only [List.lookup_eq_none_iff, List.mem_filter, bne_iff_ne]
    intro e he
    exact Ne.symm he.2
  simp [node?, put, h, List.lookup_append, hf]

theorem node?_put_of_ne (d : Disk) {p q : Place} (h : q ≠ p) (n : Node) :
    (d.put p n).node? q = d.node? q := by
  have hf (l : List (Place × Node)) : (l.filter (·.1 != p)).lookup q = l.lookup q := by
    induction l with
    | nil => rfl
    | cons e l ih =>
      obtain ⟨r, m⟩ := e
      by_cases hr : r = p
      · simp [hr, ih, List.lookup_cons, beq_eq_false_iff_ne.2 h]
      · simp [hr, ih, List.lookup_cons]
  simp [node?, put, List.lookup_append, hf, List.lookup_cons, beq_eq_false_iff_ne.2 h]

/-- Whether a place is the place `p` or lies below it. -/
def isWithin (p q : Place) : Bool := p.isPrefixOf q

def below (d : Disk) (p : Place) : List (Place × Node) :=
  (d.nodes.filter fun (q, _) => isWithin p q && p != q).map fun (q, n) => (q.drop p.length, n)

/-! ## Finding places -/

def nameLimit : Nat := 255

def pathLimit : Nat := 4095

/-- Follow names from a place. Every place on the way has to be a directory. -/
def follow (d : Disk) (p : Place) : List String → Except Cause Place
  | [] => .ok p
  | name :: names =>
    match d.node? p with
    | none => .error .notFound
    | some (.file _) => .error .notADirectory
    | some .directory =>
      if name = "" || name = "." then d.follow p names
      else if name = ".." then d.follow p.dropLast names
      else if nameLimit < name.utf8ByteSize then .error .nameTooLong
      else d.follow (p ++ [name]) names

/-- The place that the text of a path denotes; nothing need be there. -/
def locate (d : Disk) (path : String) : Except Cause Place :=
  if path = "" then .error .notFound
  else if pathLimit < path.utf8ByteSize then .error .nameTooLong
  else
    let names := (Text.pieces '/' path.toList).map String.ofList
    match names with
    | "" :: names => d.follow [] names
    | names => d.follow d.here names

def find (d : Disk) (path : String) : Except Cause Node := do
  match d.node? (← d.locate path) with
  | some n => .ok n
  | none => .error .notFound

def telling {α : Type} (path : String) (work : Except Cause α) : Except Failure α :=
  if Text.hasNull path then .error .nullCharacter
  else work.mapError fun cause => .refused cause path none

/-! ## Questions -/

def isFile (d : Disk) (path : String) : Bool :=
  !Text.hasNull path &&
    match d.find path with
    | .ok (.file _) => true
    | _ => false

/-- Whether a path denotes a file. A path with too long a name is an error. -/
def isFile? (d : Disk) (path : String) : Except Failure Bool :=
  if Text.hasNull path then .ok false
  else
    match d.find path with
    | .ok (.file _) => .ok true
    | .error .nameTooLong => .error (.refused .nameTooLong path none)
    | _ => .ok false

def read (d : Disk) (path : String) : Except Failure (List UInt8) :=
  telling path do
    match ← d.find path with
    | .file bytes => .ok bytes
    | .directory => .error .isADirectory

/-! ## Changes -/

def write (d : Disk) (path : String) (bytes : List UInt8) : Except Failure Disk :=
  telling path do
    let p ← d.locate path
    match d.node? p with
    | some .directory => .error .isADirectory
    | _ => .ok (d.put p (.file bytes))

def makeDirectory (d : Disk) (path : String) : Except Failure Disk :=
  telling path do
    let p ← d.locate path
    match d.node? p with
    | some _ => .error .alreadyThere
    | none => .ok (d.put p .directory)

def isDirectory (d : Disk) (path : String) : Bool :=
  match d.find path with
  | .ok .directory => true
  | _ => false

def ensureDirectory (d : Disk) (path : String) : Except Failure Disk :=
  match d.makeDirectory path with
  | .error (.refused .notFound p t) => .error (.refused .notFound p t)
  | .error f => if isDirectory d path then .ok d else .error f
  | .ok d => .ok d

/-- A disk after an operation that may leave it changed and fail nevertheless. -/
abbrev Attempt := Disk × Except Failure Unit

/-- What comes of one operation, which changes nothing if it fails. -/
def attempt (d : Disk) : Except Failure Disk → Attempt
  | .ok d => (d, .ok ())
  | .error f => (d, .error f)

/-- Make a directory and those above it that are missing, the highest one first. The directories are
given by their components, in reverse. -/
def ensureAbove (root : String) : List String → Disk → Attempt
  | components, d =>
    let path := Path.toString ⟨root, components.reverse⟩
    match components, d.ensureDirectory path with
    | _ :: above, .error (.refused .notFound _ _) =>
      match ensureAbove root above d with
      | (d, .ok ()) => d.attempt (d.ensureDirectory path)
      | failed => failed
    | _, outcome => d.attempt outcome

/-- Make a directory with the missing ones above it, unless it is there already. The directories that
are made before one cannot be made stay. -/
def ensureDirectories (d : Disk) (p : Path) : Attempt :=
  ensureAbove p.root p.components.reverse d

def conflict? (d : Disk) (target : Place) : Node → Option Node → Option Cause
  | _, none => none
  | .file _, some (.file _) => none
  | .file _, some .directory => some .isADirectory
  | .directory, some (.file _) => some .notADirectory
  | .directory, some .directory => if (d.below target).isEmpty then none else some .notEmpty

def relocate (d : Disk) (source target : Place) : Disk :=
  let moved := d.nodes.filter (isWithin source ·.1)
  let kept := d.nodes.filter fun (q, _) => !isWithin source q && q != target
  { d with nodes := kept ++ moved.map fun (q, n) => (target ++ q.drop source.length, n) }

def move (d : Disk) (source target : String) : Except Failure Disk :=
  if Text.hasNull source || Text.hasNull target then .error .nullCharacter
  else
    Except.mapError (fun cause => .refused cause source (some target)) do
      let s ← d.locate source
      match d.node? s with
      | none => .error .notFound
      | some node =>
        let t ← d.locate target
        if s = t then .ok d
        else
          match d.conflict? t node (d.node? t) with
          | some cause => .error cause
          | none => .ok (d.relocate s t)

end Disk

end ContractBindings.Files
