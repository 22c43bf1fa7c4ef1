import ContractBindings.Decimal.Notation
import ContractBindings.Json.Basic
import ContractBindings.Text.Quoted

/-! # Values in running text

A value put into a name, a type or a message: a text stands for itself, and inside a list or a table
it is quoted.
-/

namespace ContractBindings.Json

mutual
/-- A value as it is shown inside another one. -/
def shown : Json → List Char
  | .null => "None".toList
  | .bool true => "True".toList
  | .bool false => "False".toList
  | .int n => Decimal.intText n
  | .double x => Decimal.Notation.plain.text x
  | .str s => Text.quotedChars s.toList
  | .arr [] => ['[', ']']
  | .arr (v :: vs) => '[' :: shown v ++ shownItems vs ++ [']']
  | .obj [] => ['\x7b', '\x7d']
  | .obj ((k, v) :: fs) =>
    '\x7b' :: Text.quotedChars k.toList ++ ':' :: ' ' :: shown v ++ shownFields fs ++ ['\x7d']
def shownItems : List Json → List Char
  | [] => []
  | v :: vs => ',' :: ' ' :: shown v ++ shownItems vs
def shownFields : List (String × Json) → List Char
  | [] => []
  | (k, v) :: fs =>
    ',' :: ' ' :: Text.quotedChars k.toList ++ ':' :: ' ' :: shown v ++ shownFields fs
end

def display : Json → String
  | .str s => s
  | v => String.ofList (shown v)

end ContractBindings.Json
