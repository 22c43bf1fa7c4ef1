import ContractBindings.Decimal.Reader
import ContractBindings.Json.Basic
import ContractBindings.Text.Hex
import ContractBindings.Text.Split

/-! # Reading JSON

A strict reader that also takes `NaN`, `Infinity` and `-Infinity`. A key that an object repeats keeps
its first place and its last value. A failure names the fault and the place where it shows.
-/

namespace ContractBindings.Json

variable {σ : Type}

inductive Fault where
  | byteOrderMark
  | value
  | fieldName
  | colon
  | comma
  | extra
  | unterminated
  | control
  | escape
  | unicodeEscape
deriving DecidableEq, Repr

def Fault.message : Fault → String
  | .byteOrderMark => "Unexpected UTF-8 BOM (decode using utf-8-sig)"
  | .value => "Expecting value"
  | .fieldName => "Expecting property name enclosed in double quotes"
  | .colon => "Expecting ':' delimiter"
  | .comma => "Expecting ',' delimiter"
  | .extra => "Extra data"
  | .unterminated => "Unterminated string starting at"
  | .control => "Invalid control character at"
  | .escape => "Invalid \\escape"
  | .unicodeEscape => "Invalid \\uXXXX escape"

/-- A fault and its place: lines and columns count from one, positions from zero. -/
structure SyntaxError where
  fault : Fault
  line : Nat
  column : Nat
  position : Nat
deriving DecidableEq, Repr

/-- The error for a fault that shows after a number of characters of a text. -/
def SyntaxError.at (text : List Char) (fault : Fault) (position : Nat) : SyntaxError :=
  let before := text.take position
  ⟨fault, before.count '\n' + 1, (before.reverse.takeWhile (· != '\n')).length + 1, position⟩

def SyntaxError.message (e : SyntaxError) : String :=
  e.fault.message ++ ": line " ++ toString e.line ++ " column " ++ toString e.column ++ " (char " ++
    toString e.position ++ ")"

/-- What a reading step leaves: its result, or a fault and the text from the place where it shows. -/
abbrev Outcome := Except (Fault × List Char)

def isSpace (c : Char) : Bool := c = ' ' || c = '\t' || c = '\n' || c = '\r'

def skipSpace (cs : List Char) : List Char := cs.dropWhile isSpace

/-! ## Strings -/

def unit? (a b c d : Char) : Option Nat := do
  let a ← Text.hexValue? a
  let b ← Text.hexValue? b
  let c ← Text.hexValue? c
  let d ← Text.hexValue? d
  return ((a * 16 + b) * 16 + c) * 16 + d

def shortEscape? : Char → Option Char
  | '"' => some '"'
  | '\\' => some '\\'
  | '/' => some '/'
  | 'b' => some (Char.ofNat 8)
  | 'f' => some (Char.ofNat 12)
  | 'n' => some '\n'
  | 'r' => some '\r'
  | 't' => some '\t'
  | _ => none

/-- The code points and code units of a string after its opening quote; `start` is the text from that
quote on. Text must follow the digits of an escape. -/
def units (start : List Char) : List Char → Outcome (List Nat × List Char)
  | [] => .error (.unterminated, start)
  | c :: cs =>
    if c = '"' then .ok ([], cs)
    else if c = '\\' then
      match cs with
      | [] => .error (.unterminated, start)
      | 'u' :: a :: b :: c :: d :: e :: rest =>
        match unit? a b c d with
        | none => .error (.unicodeEscape, cs)
        | some n => do
          let (ns, rest) ← units start (e :: rest)
          .ok (n :: ns, rest)
      | 'u' :: _ => .error (.unicodeEscape, cs)
      | e :: rest =>
        match shortEscape? e with
        | none => .error (.escape, c :: cs)
        | some e => do
          let (ns, rest) ← units start rest
          .ok (e.toNat :: ns, rest)
    else if c.toNat < 32 then .error (.control, c :: cs)
    else do
      let (ns, rest) ← units start cs
      .ok (c.toNat :: ns, rest)

def isHighSurrogate (n : Nat) : Bool := 0xD800 ≤ n && n < 0xDC00

def isLowSurrogate (n : Nat) : Bool := 0xDC00 ≤ n && n < 0xE000

/-- Join the surrogate pairs of a string; a surrogate that stands alone is kept. -/
def joinPairs : List Nat → CodePoints
  | [] => []
  | [n] => [.ofNat n]
  | n :: m :: ns =>
    if isHighSurrogate n && isLowSurrogate m then
      .char (Char.ofNat (0x10000 + (n - 0xD800) * 0x400 + (m - 0xDC00))) :: joinPairs ns
    else .ofNat n :: joinPairs (m :: ns)

def stringAfterQuote [JsonString σ] (cs : List Char) : Outcome (σ × List Char) := do
  let (ns, rest) ← units ('"' :: cs) cs
  .ok (JsonString.ofPoints (joinPairs ns), rest)

/-! ## Numbers and words -/

def fraction : List Char → List Nat × List Char
  | '.' :: cs =>
    match Decimal.spanDigits cs with
    | ([], _) => ([], '.' :: cs)
    | (ds, rest) => (ds, rest)
  | cs => ([], cs)

def exponent? : List Char → Option (Int × List Char)
  | [] => none
  | c :: cs =>
    if c = 'e' || c = 'E' then
      let (negative, cs) := Decimal.sign cs
      match Decimal.spanDigits cs with
      | ([], _) => none
      | (ds, rest) =>
        some (if negative then -(Decimal.ofDigits ds : Int) else Decimal.ofDigits ds, rest)
    else none

def wholePart : List Char → List Nat × List Char
  | '0' :: cs => ([0], cs)
  | cs => Decimal.spanDigits cs

/-- A number, an integer unless it has a fraction or an exponent. -/
def number? (cs : List Char) : Option (Json σ × List Char) :=
  let (negative, digits) :=
    match cs with
    | '-' :: cs => (true, cs)
    | cs => (false, cs)
  match wholePart digits with
  | ([], _) => none
  | (whole, rest) =>
    let (part, rest) := fraction rest
    match part, exponent? rest with
    | [], none =>
      let n : Int := Decimal.ofDigits whole
      some (.int (if negative then -n else n), rest)
    | _, none =>
      some (.double (Binary64.ofDecimal negative (Decimal.ofDigits (whole ++ part)) (-part.length)), rest)
    | _, some (e, rest) =>
      some (.double (Binary64.ofDecimal negative (Decimal.ofDigits (whole ++ part)) (e - part.length)), rest)

def words : List (List Char × Json σ) := [
  ("null".toList, .null), ("true".toList, .bool true), ("false".toList, .bool false),
  ("NaN".toList, .double Binary64.nan), ("Infinity".toList, .double (Binary64.infinity false)),
  ("-Infinity".toList, .double (Binary64.infinity true))]

def scalar? (cs : List Char) : Option (Json σ × List Char) :=
  match words.findSome? fun (w, v) => (Text.dropLead? w cs).map fun rest => (v, rest) with
  | some found => some found
  | none => number? cs

/-! ## Values -/

variable [JsonString σ] [DecidableEq σ]

mutual
def value : (fuel : Nat) → List Char → Outcome (Json σ × List Char)
  | 0, cs => .error (.value, cs)
  | fuel + 1, cs =>
    match cs with
    | '"' :: cs => do
      let (s, rest) ← stringAfterQuote cs
      .ok (.str s, rest)
    | '[' :: cs =>
      match skipSpace cs with
      | ']' :: rest => .ok (.arr [], rest)
      | cs => do
        let (vs, rest) ← items fuel cs
        .ok (.arr vs, rest)
    | '\x7b' :: cs =>
      match skipSpace cs with
      | '\x7d' :: rest => .ok (.obj [], rest)
      | cs => do
        let (fs, rest) ← fields fuel cs
        .ok (.obj (Keyed.ofPairs fs), rest)
    | cs =>
      match scalar? cs with
      | some found => .ok found
      | none => .error (.value, cs)
def items : (fuel : Nat) → List Char → Outcome (List (Json σ) × List Char)
  | 0, cs => .error (.value, cs)
  | fuel + 1, cs => do
    let (v, rest) ← value fuel cs
    match skipSpace rest with
    | ']' :: rest => .ok ([v], rest)
    | ',' :: rest =>
      let (vs, rest) ← items fuel (skipSpace rest)
      .ok (v :: vs, rest)
    | rest => .error (.comma, rest)
def fields : (fuel : Nat) → List Char → Outcome (List (σ × Json σ) × List Char)
  | 0, cs => .error (.value, cs)
  | fuel + 1, cs =>
    match cs with
    | '"' :: cs => do
      let (k, rest) ← stringAfterQuote cs
      match skipSpace rest with
      | ':' :: rest =>
        let (v, rest) ← value fuel (skipSpace rest)
        match skipSpace rest with
        | '\x7d' :: rest => .ok ([(k, v)], rest)
        | ',' :: rest =>
          let (fs, rest) ← fields fuel (skipSpace rest)
          .ok ((k, v) :: fs, rest)
        | rest => .error (.comma, rest)
      | rest => .error (.colon, rest)
    | cs => .error (.fieldName, cs)
end

/-- The value that a whole text is. Each call of the reader looks at a character that no call around
it has taken, or is the first call of a bracket, so the fuel suffices. -/
def whole (text : List Char) : Outcome (Json σ × List Char) := do
  let (v, rest) ← value (2 * text.length + 2) (skipSpace text)
  match skipSpace rest with
  | [] => .ok (v, [])
  | rest => .error (.extra, rest)

def read (text : List Char) : Except SyntaxError (Json σ) :=
  if text.head? = some '\uFEFF' then .error (.at text .byteOrderMark 0)
  else
    match whole text with
    | .ok (v, _) => .ok v
    | .error (fault, rest) => .error (.at text fault (text.length - rest.length))

end ContractBindings.Json
