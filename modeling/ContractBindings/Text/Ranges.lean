/-! # Sets of code points by their boundaries -/

namespace ContractBindings.Text

/-- Whether a code point lies in the set that an ascending list of boundaries describes: the set
starts at the first boundary, stops before the second, starts again at the third, and so on. -/
def within : List Nat → Nat → Bool
  | [], _ => false
  | b :: bs, n => if n < b then false else !within bs n

end ContractBindings.Text
