import ContractBindings.Decimal.Binary64

/-! # Shortest decimals

The decimal with the fewest digits that reads back as a given binary number; of two such decimals
the nearer one. The numbers that read back as `m * 2 ^ q` form an interval around it, half a step
to each side, and the search goes through decimal grids from coarse to fine.
-/

namespace ContractBindings.Decimal

structure Scientific where
  digits : Nat
  exponent : Int
deriving DecidableEq, Repr

/-- A value and the interval that rounds to it, all over one denominator. -/
structure Interval where
  low : Nat
  value : Nat
  high : Nat
  den : Nat
  closed : Bool

/-- The interval of a positive finite number, in quarters of its step. Below a power of two the
steps are half as wide. -/
def Interval.of (x : Binary64) : Interval :=
  let m := x.significand
  let below := if m = Nat.pow 2 52 && -1074 < x.scale then 1 else 2
  let num := Nat.pow 2 (x.scale - 2).toNat
  ⟨(4 * m - below) * num, 4 * m * num, (4 * m + 2) * num, Nat.pow 2 (2 - x.scale).toNat, m % 2 = 0⟩

def Interval.atGrid (i : Interval) (k : Int) : Interval :=
  let up := Nat.pow 10 (-k).toNat
  ⟨i.low * up, i.value * up, i.high * up, i.den * Nat.pow 10 k.toNat, i.closed⟩

def Interval.holds (i : Interval) (n : Nat) : Bool :=
  if i.closed then i.low ≤ n * i.den && n * i.den ≤ i.high
  else i.low < n * i.den && n * i.den < i.high

/-- The integer of the interval that is nearest to its value, if one of the two around the value
lies in it; of two equally near ones the even one. -/
def Interval.nearest? (i : Interval) : Option Nat :=
  let a := i.value / i.den
  let r := i.value % i.den
  match i.holds a, i.holds (a + 1) with
  | true, false => some a
  | false, true => some (a + 1)
  | false, false => none
  | true, true =>
    if 2 * r < i.den then some a
    else if i.den < 2 * r then some (a + 1)
    else if a % 2 = 0 then some a else some (a + 1)

/-- The greatest `k` with `10 ^ k` at most the value, from a guess by the length in base two. -/
def Interval.order (i : Interval) : Int :=
  let guess : Int := ((Nat.log2 i.value : Int) - Nat.log2 i.den) * 30103 / 100000
  let reaches (k : Int) : Bool := (i.atGrid k).den ≤ (i.atGrid k).value
  if reaches (guess + 1) then guess + 1 else if reaches guess then guess else guess - 1

def Scientific.trimmed : (steps : Nat) → Scientific → Scientific
  | 0, s => s
  | steps + 1, s =>
    if s.digits % 10 = 0 then Scientific.trimmed steps ⟨s.digits / 10, s.exponent + 1⟩ else s

/-- Try the grids `10 ^ k`, `10 ^ (k - 1)`, and so on. -/
def Interval.search (i : Interval) : (steps : Nat) → Int → Scientific
  | 0, k => ⟨i.value / i.den, k⟩
  | steps + 1, k =>
    match (i.atGrid k).nearest? with
    | some n => Scientific.trimmed 20 ⟨n, k⟩
    | none => i.search steps (k - 1)

/-- The shortest decimal that reads back as the magnitude of a finite number other than zero;
seventeen digits always suffice. -/
def shortest (x : Binary64) : Scientific :=
  let i := Interval.of x
  i.search 18 i.order

end ContractBindings.Decimal
