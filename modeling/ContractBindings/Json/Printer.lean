import ContractBindings.Decimal.Notation
import ContractBindings.Json.Basic

/-! # JSON text

JSON is written in the printable characters of ASCII: every other character is escaped, as a surrogate
pair where it lies beyond the first plane. The layout puts items on one line or on lines of their own.
-/

namespace ContractBindings.Json

def notation64 : Decimal.Notation := { Decimal.Notation.plain with infinity := "Infinity", nan := "NaN" }

/-! ## Strings -/

def unitEscape (n : Nat) : List Char := '\\' :: 'u' :: Text.hexDigits 4 n

def escape (c : Char) : List Char :=
  if c = '"' then ['\\', '"']
  else if c = '\\' then ['\\', '\\']
  else if c = '\n' then ['\\', 'n']
  else if c = '\r' then ['\\', 'r']
  else if c = '\t' then ['\\', 't']
  else if c.toNat = 8 then ['\\', 'b']
  else if c.toNat = 12 then ['\\', 'f']
  else if 32 ≤ c.toNat && c.toNat < 127 then [c]
  else if c.toNat < 0x10000 then unitEscape c.toNat
  else
    unitEscape (0xD800 + (c.toNat - 0x10000) / 0x400) ++
      unitEscape (0xDC00 + (c.toNat - 0x10000) % 0x400)

def stringChars (s : String) : List Char := '"' :: s.toList.flatMap escape ++ ['"']

/-! ## Values -/

/-- How the items of arrays and objects are set apart. -/
inductive Layout where
  | inline
  | indented (width : Nat)

namespace Layout

def lead : Layout → Nat → List Char
  | .inline, _ => []
  | .indented width, depth => '\n' :: List.replicate (width * depth) ' '

def separator : Layout → Nat → List Char
  | .inline, _ => [',', ' ']
  | .indented width, depth => ',' :: lead (.indented width) depth

end Layout

mutual
/-- A value at a nesting depth. -/
def chars (layout : Layout) (depth : Nat) : Json → List Char
  | .null => ['n', 'u', 'l', 'l']
  | .bool true => ['t', 'r', 'u', 'e']
  | .bool false => ['f', 'a', 'l', 's', 'e']
  | .int n => Decimal.intText n
  | .double x => notation64.text x
  | .str s => stringChars s
  | .arr [] => ['[', ']']
  | .arr (v :: vs) =>
    '[' :: layout.lead (depth + 1) ++ chars layout (depth + 1) v ++
      itemChars layout (depth + 1) vs ++ layout.lead depth ++ [']']
  | .obj [] => ['\x7b', '\x7d']
  | .obj ((k, v) :: fs) =>
    '\x7b' :: layout.lead (depth + 1) ++ stringChars k ++ ':' :: ' ' ::
      chars layout (depth + 1) v ++ fieldChars layout (depth + 1) fs ++ layout.lead depth ++ ['\x7d']
def itemChars (layout : Layout) (depth : Nat) : List Json → List Char
  | [] => []
  | v :: vs => layout.separator depth ++ chars layout depth v ++ itemChars layout depth vs
def fieldChars (layout : Layout) (depth : Nat) : List (String × Json) → List Char
  | [] => []
  | (k, v) :: fs =>
    layout.separator depth ++ stringChars k ++ ':' :: ' ' :: chars layout depth v ++
      fieldChars layout depth fs
end

def text (v : Json) : String := String.ofList (chars .inline 0 v)

/-- A value over several lines, two blanks deeper at each level. -/
def pretty (v : Json) : String := String.ofList (chars (.indented 2) 0 v)

end ContractBindings.Json
