import ContractBindings.Decimal.Reader

/-!
# Digits of integers

The decimal text of a natural number is the characters of its digits, which
are read back as far as digits go.
-/

namespace ContractBindings.Decimal

theorem digit?_digitChar : ∀ d < 10, digit? d.digitChar = some d := by
  decide

theorem digit?_eq_some {c : Char} {d : Nat} (h : digit? c = some d) : c = d.digitChar ∧ d < 10 := by
  unfold digit? at h
  split at h
  · next hc =>
    simp only [Bool.and_eq_true, decide_eq_true_eq, Char.le_def, UInt32.le_iff_toNat_le] at hc
    have h0 : '0'.val.toNat = 48 := rfl
    have h9 : '9'.val.toNat = 57 := rfl
    have hval : c.val.toNat = c.toNat := rfl
    cases h
    have hlt : c.toNat - 48 < 10 := by omega
    refine ⟨Char.toNat_inj.mp ?_, hlt⟩
    rw [Nat.toNat_digitChar_of_lt_ten hlt]
    omega
  · cases h

theorem ofDigits_concat (ds : List Nat) (d : Nat) : ofDigits (ds ++ [d]) = 10 * ofDigits ds + d := by
  rw [ofDigits, ofDigits, List.foldl_append]
  rfl

structure IsDigitsOf (n : Nat) (ds : List Nat) : Prop where
  text : natText n = ds.map Nat.digitChar
  digits : ∀ d ∈ ds, d < 10
  value : ofDigits ds = n
  lead : ∃ d tail, ds = d :: tail ∧ (d = 0 → tail = [] ∧ n = 0)

theorem exists_isDigitsOf (n : Nat) : ∃ ds, IsDigitsOf n ds := by
  induction n using Nat.strongRecOn with
  | ind n ih =>
    by_cases hn : n < 10
    · refine ⟨[n], Nat.toDigits_of_lt_base hn, by simpa using hn, ?_, n, [], rfl, fun h => ⟨rfl, h⟩⟩
      simp [ofDigits]
    · obtain ⟨ds, htext, hdigits, hvalue, d, tail, rfl, hlead⟩ := ih (n / 10) (by omega)
      have hsplit : natText n = natText (n / 10) ++ [(n % 10).digitChar] := by
        have happ := Nat.toDigits_append_toDigits (by decide : 1 < 10) (by omega : 0 < n / 10)
          (by omega : n % 10 < 10)
        rw [Nat.toDigits_of_lt_base (by omega : n % 10 < 10), Nat.div_add_mod] at happ
        exact happ.symm
      refine ⟨d :: tail ++ [n % 10], ?_, ?_, ?_, d, tail ++ [n % 10], rfl, ?_⟩
      · rw [hsplit, htext, List.map_append]
        rfl
      · intro e he
        rcases List.mem_append.mp he with he | he
        · exact hdigits e he
        · rw [List.mem_singleton] at he
          omega
      · rw [ofDigits_concat, hvalue]
        omega
      · intro h0
        have := (hlead h0).2
        omega

/-! ## Digits at the front of a text -/

def NoDigit (rest : List Char) : Prop := ∀ c, rest.head? = some c → digit? c = none

def EndsNumber (rest : List Char) : Prop :=
  ∀ c, rest.head? = some c → digit? c = none ∧ c ≠ '.' ∧ c ≠ 'e' ∧ c ≠ 'E'

theorem EndsNumber.noDigit {rest : List Char} (h : EndsNumber rest) : NoDigit rest :=
  fun c hc => (h c hc).1

theorem spanDigits_digits {rest : List Char} (hr : NoDigit rest) :
    ∀ {ds : List Nat}, (∀ d ∈ ds, d < 10) → spanDigits (ds.map Nat.digitChar ++ rest) = (ds, rest)
  | [], _ => by
    cases rest with
    | nil => rfl
    | cons c cs =>
      rw [List.map_nil, List.nil_append, spanDigits, hr c rfl]
  | d :: ds, h => by
    rw [List.map_cons, List.cons_append, spanDigits, digit?_digitChar d (h d List.mem_cons_self)]
    dsimp only
    rw [spanDigits_digits hr fun e he => h e (List.mem_cons_of_mem d he)]

theorem eq_of_spanDigits : ∀ {cs : List Char} {ds : List Nat} {rest : List Char},
    spanDigits cs = (ds, rest) → cs = ds.map Nat.digitChar ++ rest ∧ ∀ d ∈ ds, d < 10
  | [], _, _, h => by
    cases h
    exact ⟨rfl, by simp⟩
  | c :: cs, ds, rest, h => by
    rw [spanDigits] at h
    split at h
    · next d hd =>
      obtain ⟨rfl, hlt⟩ := digit?_eq_some hd
      obtain ⟨ds', rest', hspan⟩ : ∃ ds' rest', spanDigits cs = (ds', rest') := ⟨_, _, rfl⟩
      rw [hspan] at h
      cases h
      obtain ⟨rfl, hds⟩ := eq_of_spanDigits hspan
      exact ⟨rfl, List.forall_mem_cons.mpr ⟨hlt, hds⟩⟩
    · cases h
      exact ⟨rfl, by simp⟩

end ContractBindings.Decimal
