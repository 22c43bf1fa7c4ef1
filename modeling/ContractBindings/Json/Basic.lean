import ContractBindings.Decimal.Binary64
import ContractBindings.Keyed
import ContractBindings.Text.CodePoint

/-! # JSON values

Numbers are integers of any size or binary floating-point numbers, and the fields of an object keep
their order. The strings are texts if nothing else is said, and lists of code points where a surrogate
that stands alone has to be kept.
-/

namespace ContractBindings

/-- A type of strings in JSON values. -/
class JsonString (σ : Type) where
  ofPoints : CodePoints → σ
  isEmpty : σ → Bool
  characters : σ → List σ

instance : JsonString String where
  ofPoints ps := String.ofList (ps.map CodePoint.toChar)
  isEmpty := String.isEmpty
  characters s := s.toList.map String.singleton

instance : JsonString CodePoints where
  ofPoints ps := ps
  isEmpty := List.isEmpty
  characters ps := ps.map fun p => [p]

inductive Json (σ : Type := String) where
  | null
  | bool (b : Bool)
  | int (n : Int)
  | double (x : Binary64)
  | str (s : σ)
  | arr (items : List (Json σ))
  | obj (fields : List (σ × Json σ))
deriving Repr, Inhabited

@[simp] theorem JsonString.isEmpty_string (s : String) : JsonString.isEmpty s = s.isEmpty := rfl

namespace Json

variable {σ : Type}

/-! ## Equality -/

section
variable [DecidableEq σ]

mutual
def beq : Json σ → Json σ → Bool
  | .null, .null => true
  | .bool a, .bool b => a = b
  | .int a, .int b => a = b
  | .double a, .double b => a = b
  | .str a, .str b => a = b
  | .arr a, .arr b => beqItems a b
  | .obj a, .obj b => beqFields a b
  | _, _ => false
def beqItems : List (Json σ) → List (Json σ) → Bool
  | [], [] => true
  | a :: as, b :: bs => beq a b && beqItems as bs
  | _, _ => false
def beqFields : List (σ × Json σ) → List (σ × Json σ) → Bool
  | [], [] => true
  | (k, a) :: as, (l, b) :: bs => (k = l && beq a b) && beqFields as bs
  | _, _ => false
end

mutual
theorem beq_iff : ∀ {a b : Json σ}, beq a b = true ↔ a = b
  | .arr a, b => by cases b <;> simp [beq, beqItems_iff]
  | .obj a, b => by cases b <;> simp [beq, beqFields_iff]
  | .null, b => by cases b <;> simp [beq]
  | .bool a, b => by cases b <;> simp [beq]
  | .int a, b => by cases b <;> simp [beq]
  | .double a, b => by cases b <;> simp [beq]
  | .str a, b => by cases b <;> simp [beq]
theorem beqItems_iff : ∀ {a b : List (Json σ)}, beqItems a b = true ↔ a = b
  | [], b => by cases b <;> simp [beqItems]
  | a :: as, b => by
    cases b with
    | nil => simp [beqItems]
    | cons b bs => simp [beqItems, beq_iff, beqItems_iff]
theorem beqFields_iff : ∀ {a b : List (σ × Json σ)}, beqFields a b = true ↔ a = b
  | [], b => by cases b <;> simp [beqFields]
  | (k, a) :: as, b => by
    cases b with
    | nil => simp [beqFields]
    | cons p bs =>
      obtain ⟨l, b⟩ := p
      simp [beqFields, beq_iff, beqFields_iff]
end

instance : DecidableEq (Json σ) := fun a b =>
  decidable_of_iff (beq a b = true) beq_iff

end

/-! ## Views -/

/-- Whether a value counts as present: it is not null, false, a zero or something empty. -/
def isTruthy [JsonString σ] : Json σ → Bool
  | .null => false
  | .bool b => b
  | .int n => n != 0
  | .double x => !x.isZero
  | .str s => !JsonString.isEmpty s
  | .arr items => !items.isEmpty
  | .obj fields => !fields.isEmpty

/-- Whether a value is a number equal to zero; the truth value false is one. -/
def isZero : Json → Bool
  | .bool b => !b
  | .int n => n == 0
  | .double x => x.isZero
  | _ => false

/-- How many items, fields or characters a value holds. -/
def size : Json → Nat
  | .str s => s.length
  | .arr items => items.length
  | .obj fields => fields.length
  | _ => 0

def kindName : Json σ → String
  | .null => "NoneType"
  | .bool _ => "bool"
  | .int _ => "int"
  | .double _ => "float"
  | .str _ => "str"
  | .arr _ => "list"
  | .obj _ => "dict"

def ofText? : Option String → Json
  | none => .null
  | some s => .str s

end Json

end ContractBindings
