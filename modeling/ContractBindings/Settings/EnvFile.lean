import ContractBindings.Keyed
import ContractBindings.Text.Blank
import ContractBindings.Text.Split

/-! # Files of variables

A file of statements `NAME=value`, one to a line. Values may be quoted, and then hold escapes and line
ends. A statement that cannot be read is left out, and reading goes on with the line after the place
where it failed. A value can refer to variables by `${NAME}` or `${NAME:-default}`.
-/

namespace ContractBindings.EnvFile

structure Statement where
  name : String
  value : Option String
deriving DecidableEq, Repr

/-- What a reading step leaves: its result and the text after it, or the text at which it failed. -/
abbrev Outcome := Except (List Char)

/-! ## Names -/

def skipInline (cs : List Char) : List Char := cs.dropWhile Text.isInlineBlank

def exportWord : List Char := ['e', 'x', 'p', 'o', 'r', 't']

def skipExport (cs : List Char) : List Char :=
  match Text.dropLead? exportWord cs with
  | some (c :: rest) => if Text.isInlineBlank c then skipInline rest else cs
  | _ => cs

def isNameChar (c : Char) : Bool := c != '=' && c != '#' && !Text.isBlank c

def readName (cs : List Char) : Outcome (Option String × List Char) :=
  match cs with
  | '#' :: _ => .ok (none, cs)
  | '\'' :: rest =>
    match Text.cutFirst? '\'' rest with
    | some (name@(_ :: _), rest) => .ok (some (String.ofList name), rest)
    | _ => .error cs
  | _ =>
    match cs.span isNameChar with
    | ([], _) => .error cs
    | (name, rest) => .ok (some (String.ofList name), rest)

/-! ## Values -/

/-- The text up to a closing quote, and the text after it. A backslash takes the character after it
along. -/
def untilQuote (quote : Char) : List Char → Option (List Char × List Char)
  | [] => none
  | ['\\'] => none
  | '\\' :: c :: cs => (untilQuote quote cs).map fun (body, rest) => ('\\' :: c :: body, rest)
  | c :: cs =>
    if c = quote then some ([], cs)
    else (untilQuote quote cs).map fun (body, rest) => (c :: body, rest)

def singleEscape? : Char → Option Char
  | '\\' => some '\\'
  | '\'' => some '\''
  | _ => none

def doubleEscape? : Char → Option Char
  | '\\' => some '\\'
  | '\'' => some '\''
  | '"' => some '"'
  | 'a' => some (Char.ofNat 7)
  | 'b' => some (Char.ofNat 8)
  | 't' => some '\t'
  | 'n' => some '\n'
  | 'v' => some (Char.ofNat 11)
  | 'f' => some (Char.ofNat 12)
  | 'r' => some '\r'
  | _ => none

/-- The text with its escapes resolved; a backslash before any other character stays. -/
def unescape (escape? : Char → Option Char) : List Char → List Char
  | [] => []
  | '\\' :: c :: cs =>
    match escape? c with
    | some d => d :: unescape escape? cs
    | none => '\\' :: unescape escape? (c :: cs)
  | c :: cs => c :: unescape escape? cs

/-- A line up to a comment, which starts with a blank and a number sign. -/
def beforeComment : List Char → List Char
  | [] => []
  | [c] => [c]
  | c :: d :: cs => if Text.isBlank c && d = '#' then [] else c :: beforeComment (d :: cs)

def readQuoted (quote : Char) (escape? : Char → Option Char) (cs rest : List Char) :
    Outcome (List Char × List Char) :=
  match untilQuote quote rest with
  | none => .error cs
  | some (body, rest) => .ok (unescape escape? body, rest)

/-- A value. After a blank a number sign starts a comment at once. -/
def readValue (afterBlank : Bool) (cs : List Char) : Outcome (List Char × List Char) :=
  match cs with
  | [] | '\n' :: _ => .ok ([], cs)
  | '\'' :: rest => readQuoted '\'' singleEscape? cs rest
  | '"' :: rest => readQuoted '"' doubleEscape? cs rest
  | c :: _ =>
    if c = '#' && afterBlank then .ok ([], cs)
    else
      let (line, rest) := cs.span (· != '\n')
      .ok (Text.dropEndWhile Text.isBlank (beforeComment line), rest)

/-! ## Statements -/

def skipLine (cs : List Char) : List Char := (cs.dropWhile (· != '\n')).drop 1

def skipComment (cs : List Char) : List Char :=
  match skipInline cs with
  | '#' :: rest => rest.dropWhile (· != '\n')
  | _ => cs

def endLine (cs : List Char) : Outcome (List Char) :=
  match skipInline cs with
  | [] => .ok []
  | '\n' :: rest => .ok rest
  | _ => .error cs

/-- The value of a statement, which may have none. -/
def readAssignment (cs : List Char) : Outcome (Option String × List Char) :=
  match cs with
  | '=' :: rest => do
    let (value, rest) ← readValue (rest.head?.any Text.isInlineBlank) (skipInline rest)
    .ok (some (String.ofList value), rest)
  | _ => .ok (none, cs)

def readStatement (cs : List Char) : Outcome (Option Statement × List Char) := do
  let (name, rest) ← readName (skipExport cs)
  let (value, rest) ← readAssignment (skipInline rest)
  let rest ← endLine (skipComment rest)
  .ok (name.map (⟨·, value⟩), rest)

/-- The statements of a text. Each of them takes at least one character. -/
def readStatements : (fuel : Nat) → List Char → List Statement
  | 0, _ => []
  | fuel + 1, cs =>
    match cs.dropWhile Text.isBlank with
    | [] => []
    | cs =>
      match readStatement cs with
      | .ok (some s, rest) => s :: readStatements fuel rest
      | .ok (none, rest) => readStatements fuel rest
      | .error rest => readStatements fuel (skipLine rest)

/-- The statements of a file; a mark of the byte order at its start is no part of them. -/
def statements (text : List Char) : List Statement :=
  let text :=
    match text with
    | '\uFEFF' :: text => text
    | text => text
  readStatements text.length text

/-! ## References -/

/-- The end of a reference after its name: its default, which may be absent, and the text after it. -/
def readDefault? : List Char → Option (List Char × List Char)
  | '\x7d' :: rest => some ([], rest)
  | ':' :: '-' :: rest => Text.cutFirst? '\x7d' rest
  | _ => none

/-- The name and the default of the reference that a text starts with. -/
def readReference? : List Char → Option ((List Char × List Char) × List Char)
  | '$' :: '\x7b' :: cs => do
    let (name, rest) := cs.span fun c => c != '\x7d' && c != ':'
    let (fallback, rest) ← readDefault? rest
    return ((name, fallback), rest)
  | _ => none

/-- The text with its references replaced by the values of the variables, or by their defaults where
the variable is unknown. -/
def interpolate (value? : String → Option String) : (fuel : Nat) → List Char → List Char
  | 0, cs => cs
  | _, [] => []
  | fuel + 1, c :: cs =>
    match readReference? (c :: cs) with
    | none => c :: interpolate value? fuel cs
    | some ((name, fallback), rest) =>
      ((value? (String.ofList name)).elim fallback String.toList) ++ interpolate value? fuel rest

/-- The values of some statements in order, when the variables around them have values already. A
variable without a value counts as empty. -/
def resolve (outer : Keyed String) (ss : List Statement) : Keyed (Option String) :=
  ss.foldl (fun known s =>
    let value? (name : String) : Option String :=
      outer.get? name <|> (known.get? name).map (·.getD "")
    known.insert s.name (s.value.map fun v =>
      String.ofList (interpolate value? v.toList.length v.toList))) []

end ContractBindings.EnvFile
