/-! # Code points

An escape in the text of another program can name a surrogate that is no part of a pair, for which
there is no character. A string that keeps it is a list of code points.
-/

namespace ContractBindings

inductive CodePoint where
  | char (c : Char)
  /-- A surrogate that stands alone, counted from U+D800. -/
  | surrogate (n : Fin 0x800)
deriving DecidableEq, Repr

namespace CodePoint

def ofNat (n : Nat) : CodePoint :=
  if h : 0xD800 ≤ n ∧ n < 0xE000 then .surrogate ⟨n - 0xD800, by omega⟩ else .char (Char.ofNat n)

/-- The character for a code point, the replacement character where there is none. -/
def toChar : CodePoint → Char
  | .char c => c
  | .surrogate _ => '\uFFFD'

end CodePoint

abbrev CodePoints := List CodePoint

def CodePoints.ofString (s : String) : CodePoints := s.toList.map .char

end ContractBindings
