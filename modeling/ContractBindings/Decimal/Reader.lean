import ContractBindings.Decimal.Binary64
import ContractBindings.Decimal.Digit
import ContractBindings.Text.Blank

/-! # Numbers in settings

Numbers as a person may write them: blanks around them, a sign, digits of any script, and single
underscores between digits.
-/

namespace ContractBindings.Decimal

/-- The blanks that may stand around a number; the four information separators are no such blanks. -/
def isPadding (c : Char) : Bool :=
  Text.isBlank c && !(28 ≤ c.toNat && c.toNat < 32)

/-- The text with the digits of every script written in ASCII. -/
def plainDigits (cs : List Char) : List Char :=
  cs.map fun c =>
    match anyDigit? c with
    | some d => Char.ofNat (48 + d)
    | none => c

/-- The text without its underscores, if each of them stands between two digits. -/
def withoutMarks? : (afterDigit : Bool) → List Char → Option (List Char)
  | _, [] => some []
  | afterDigit, '_' :: cs =>
    match cs with
    | c :: _ => if afterDigit && c.isDigit then withoutMarks? false cs else none
    | [] => none
  | _, c :: cs => (c :: ·) <$> withoutMarks? c.isDigit cs

def plainNumber? (s : String) : Option (List Char) :=
  withoutMarks? false (plainDigits (Text.stripWhile isPadding s.toList))

def sign : List Char → Bool × List Char
  | '-' :: cs => (true, cs)
  | '+' :: cs => (false, cs)
  | cs => (false, cs)

def allDigits? (cs : List Char) : Option (List Nat) := cs.mapM digit?

def spanDigits : List Char → List Nat × List Char
  | [] => ([], [])
  | c :: cs =>
    match digit? c with
    | some d => let (ds, rest) := spanDigits cs; (d :: ds, rest)
    | none => ([], c :: cs)

inductive IntegerFault where
  | malformed
  | tooLong (digits : Nat)
deriving DecidableEq, Repr

def digitLimit : Nat := 4300

def readInteger (s : String) : Except IntegerFault Int :=
  match plainNumber? s with
  | none => .error .malformed
  | some cs =>
    let (negative, cs) := sign cs
    match cs, allDigits? cs with
    | _ :: _, some ds =>
      if digitLimit < ds.length then .error (.tooLong ds.length)
      else .ok (if negative then -(ofDigits ds : Int) else ofDigits ds)
    | _, _ => .error .malformed

/-- The exponent after a mantissa, if the text ends with it; no text at all is the exponent zero. -/
def exponent? : List Char → Option Int
  | [] => some 0
  | c :: cs =>
    if c.toLower = 'e' then
      let (negative, cs) := sign cs
      match spanDigits cs with
      | (ds@(_ :: _), []) => some (if negative then -(ofDigits ds : Int) else ofDigits ds)
      | _ => none
    else none

/-- A number with an optional fraction and exponent, or a word for what is no finite number. -/
def readBinary64? (s : String) : Option Binary64 := do
  let (negative, cs) := sign (← plainNumber? s)
  let word := String.ofList (cs.map Char.toLower)
  if word = "inf" || word = "infinity" then return Binary64.infinity negative
  if word = "nan" then return Binary64.nan
  let (whole, rest) := spanDigits cs
  let (part, rest) :=
    match rest with
    | '.' :: rest => spanDigits rest
    | rest => ([], rest)
  if whole.isEmpty && part.isEmpty then none
  let e ← exponent? rest
  return Binary64.ofDecimal negative (ofDigits (whole ++ part)) (e - part.length)

end ContractBindings.Decimal
