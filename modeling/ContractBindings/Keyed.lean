/-! # Keyed lists

Association lists in the order in which their keys first came. A value stored under a key that is
present takes the place of the old one, so a key keeps its position and its last value counts.
-/

namespace ContractBindings

/-- Values under keys, which are texts if nothing else is said, in insertion order. -/
abbrev Keyed (α : Type) (κ : Type := String) := List (κ × α)

namespace Keyed

variable {α κ : Type}

def keys (m : Keyed α κ) : List κ := m.map Prod.fst

variable [DecidableEq κ]

def get? : Keyed α κ → κ → Option α
  | [], _ => none
  | (k, v) :: m, key => if k = key then some v else get? m key

def insert : Keyed α κ → κ → α → Keyed α κ
  | [], key, value => [(key, value)]
  | (k, v) :: m, key, value =>
    if k = key then (key, value) :: m else (k, v) :: insert m key value

def ofPairs (ps : List (κ × α)) : Keyed α κ :=
  ps.foldl (fun m p => insert m p.1 p.2) []

theorem get?_insert_self (m : Keyed α κ) (k : κ) (v : α) : (insert m k v).get? k = some v := by
  induction m with
  | nil => simp [insert, get?]
  | cons p m ih =>
    by_cases h : p.1 = k
    · simp [insert, get?, h]
    · simp [insert, get?, h, ih]

theorem get?_insert_of_ne {k l : κ} (h : k ≠ l) (m : Keyed α κ) (v : α) :
    (insert m k v).get? l = m.get? l := by
  induction m with
  | nil => simp [insert, get?, h]
  | cons p m ih =>
    by_cases hp : p.1 = k
    · subst hp
      simp [insert, get?, h]
    · simp [insert, get?, hp, ih]

/-- A key keeps its position, and a new one comes last. -/
theorem keys_insert (m : Keyed α κ) (k : κ) (v : α) :
    (insert m k v).keys = if k ∈ m.keys then m.keys else m.keys ++ [k] := by
  induction m with
  | nil => simp [insert, keys]
  | cons p m ih =>
    by_cases hp : p.1 = k
    · simp [insert, keys, hp]
    · simp only [keys] at ih
      by_cases hm : k ∈ m.map Prod.fst
      · simp [insert, keys, hp, hm, ih]
      · simp [insert, keys, hp, hm, ih, Ne.symm hp]

end Keyed

end ContractBindings
