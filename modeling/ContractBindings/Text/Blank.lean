/-! # Blank characters

The blanks of Unicode and the trimming of text by them.
-/

namespace ContractBindings.Text

/-- Whether a character is blank: a space or a line, paragraph or segment separator of Unicode. -/
def isBlank (c : Char) : Bool :=
  let n := c.toNat
  (9 ≤ n && n ≤ 13) || (28 ≤ n && n ≤ 32) || n == 0x85 || n == 0xA0 || n == 0x1680 ||
    (0x2000 ≤ n && n ≤ 0x200A) || n == 0x2028 || n == 0x2029 || n == 0x202F || n == 0x205F ||
    n == 0x3000

def isInlineBlank (c : Char) : Bool :=
  isBlank c && c != '\r' && c != '\n'

def dropEndWhile (p : Char → Bool) (cs : List Char) : List Char :=
  (cs.reverse.dropWhile p).reverse

def stripWhile (p : Char → Bool) (cs : List Char) : List Char :=
  dropEndWhile p (cs.dropWhile p)

def strip (s : String) : String :=
  String.ofList (stripWhile isBlank s.toList)

end ContractBindings.Text
