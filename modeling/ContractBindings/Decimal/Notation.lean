import ContractBindings.Decimal.Shortest
import ContractBindings.Decimal.Digit
import ContractBindings.Text.Hex

/-! # Written numbers -/

namespace ContractBindings.Decimal

/-- How binary numbers are written: the powers of ten of the first digit between which the point is
placed among the digits, the least number of digits of an exponent, and the words for what is no
number. -/
structure Notation where
  leastPlain : Int
  firstScaled : Int
  exponentDigits : Nat
  infinity : String
  nan : String

def Notation.plain : Notation := ⟨-4, 16, 2, "inf", "nan"⟩

def padded (width : Nat) (cs : List Char) : List Char :=
  List.replicate (width - cs.length) '0' ++ cs

def exponentText (width : Nat) (e : Int) : List Char :=
  'e' :: (if e < 0 then '-' else '+') :: padded width (natText e.natAbs)

/-- A decimal in the notation; an integral value keeps one zero after the point. -/
def Notation.write (n : Notation) (s : Scientific) : List Char :=
  let ds := natText s.digits
  let top : Int := s.exponent + ds.length - 1
  if top < n.leastPlain || n.firstScaled ≤ top then
    match ds with
    | [] => []
    | [d] => d :: exponentText n.exponentDigits top
    | d :: ds => d :: '.' :: ds ++ exponentText n.exponentDigits top
  else if 0 ≤ s.exponent then ds ++ List.replicate s.exponent.toNat '0' ++ ['.', '0']
  else if 0 ≤ top then ds.take (top.toNat + 1) ++ '.' :: ds.drop (top.toNat + 1)
  else '0' :: '.' :: List.replicate (-top - 1).toNat '0' ++ ds

def Notation.text (n : Notation) (x : Binary64) : List Char :=
  let sign := if x.isNegative then ['-'] else []
  if x.isNaN then n.nan.toList
  else if x.isInfinite then sign ++ n.infinity.toList
  else if x.isZero then sign ++ ['0', '.', '0']
  else sign ++ n.write (shortest x)

/-- A binary number in base sixteen with an exponent of two, which loses nothing. -/
def hexText (x : Binary64) : List Char :=
  let sign := if x.isNegative then ['-'] else []
  if x.isNaN then "nan".toList
  else if x.isInfinite then sign ++ "inf".toList
  else if x.isZero then sign ++ "0x0.0p+0".toList
  else
    let lead := if x.exponentField = 0 then '0' else '1'
    let e := x.scale + 52
    sign ++ '0' :: 'x' :: lead :: '.' :: Text.hexDigits 13 x.fraction ++
      'p' :: (if e < 0 then '-' else '+') :: natText e.natAbs

end ContractBindings.Decimal
