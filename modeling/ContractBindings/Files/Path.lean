import ContractBindings.Text.Split

/-! # Paths

A path in its normal form: a root and components, without empty components and those that stay where
they are. Components that lead upwards are kept.
-/

namespace ContractBindings.Files

/-- A path. The root is empty for a path that starts at the working directory, and is one slash or two
otherwise. -/
structure Path where
  root : String
  components : List String
deriving DecidableEq, Repr

namespace Path

/-- The root that a text starts with: exactly two slashes are a root of their own. -/
def rootOf : List Char → String
  | '/' :: '/' :: '/' :: _ => "/"
  | '/' :: '/' :: _ => "//"
  | '/' :: _ => "/"
  | _ => ""

def componentsOf (cs : List Char) : List String :=
  ((Text.pieces '/' cs).map String.ofList).filter fun c => c != "" && c != "."

def ofString (s : String) : Path := ⟨rootOf s.toList, componentsOf s.toList⟩

/-- The text of a path; the working directory is a point. -/
def toString (p : Path) : String :=
  if p.root = "" && p.components.isEmpty then "." else p.root ++ "/".intercalate p.components

instance : ToString Path := ⟨toString⟩

/-- The path that a text denotes below a path; a text with a root stands for itself. -/
def join (p : Path) (s : String) : Path :=
  let q := ofString s
  if q.root = "" then ⟨p.root, p.components ++ q.components⟩ else q

def name (p : Path) : String := p.components.getLast?.getD ""

/-- A name without its last suffix. A point at the start or at the end of a name begins none. -/
def withoutSuffix (name : String) : String :=
  match Text.cutLast? '.' name.toList with
  | some (stem@(_ :: _), _ :: _) => String.ofList stem
  | _ => name

def stem (p : Path) : String := withoutSuffix p.name

def parent (p : Path) : Path := { p with components := p.components.dropLast }

end Path

def inside (directory name : String) : String :=
  if directory.toList.getLast? = some '/' then directory ++ name else directory ++ "/" ++ name

end ContractBindings.Files
