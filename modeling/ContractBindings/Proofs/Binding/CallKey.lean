import ContractBindings.Proofs.Abi.Signature
import ContractBindings.Proofs.Binding.Members
import ContractBindings.Proofs.Outcome

/-!
# Calls find their functions

A contract object finds a function by its name, or by its signature if the
key has a parenthesis. The key of every member finds one function and no
other: the one that the member is built from (`callKey_selects`).
-/

namespace ContractBindings

namespace Abi

def declaresFunction : Json → Bool
  | .obj fields =>
    match Keyed.get? fields "type" with
    | none => true
    | some kind => !kind.isTruthy || kind = .str "function"
  | _ => false

theorem isFunction_of_ofJson {v : Json} {e : Entry} (h : Entry.ofJson v = .ok e) :
    e.isFunction = declaresFunction v := by
  simp only [Entry.ofJson, except_bind_eq_ok, except_pure_eq_ok] at h
  obtain ⟨kind, hkind, -, -, -, -, -, -, -, -, -, -, -, -, rfl⟩ := h
  cases v with
  | obj fields =>
    obtain ⟨o, ho, hkind⟩ := except_bind_eq_ok.mp hkind
    cases ho; cases hkind
    cases hk : Keyed.get? fields "type" with
    | none => rw [declaresFunction, hk]; rfl
    | some kind =>
      simp only [declaresFunction, hk, Entry.isFunction, Entry.functionKind, Option.getD_some]
      by_cases ht : kind.isTruthy = true <;> simp [ht]
  | _ => cases hkind

/-- Whether a contract object finds a function under a key: by the signature if the key has a
parenthesis, and by the name otherwise. -/
def Entry.answersTo (key : String) (e : Entry) : Bool :=
  e.isFunction && if key.toList.contains '(' then e.signature == key else e.name == key

theorem Entry.filter_answersTo (key : String) (entries : List Entry) :
    entries.filter (·.answersTo key) = (entries.filter (·.isFunction)).filter fun e =>
      if key.toList.contains '(' then e.signature == key else e.name == key := by
  rw [List.filter_filter]
  apply List.filter_congr; intro e _
  rw [answersTo, Bool.and_comm]

theorem Entry.contains_signature (e : Entry) : e.signature.toList.contains '(' = true := by
  rw [List.contains_iff_mem, toList_signature]
  exact List.mem_append_right _ List.mem_cons_self

end Abi

theorem filter_eq_singleton {α : Type} {p : α → Bool} {l : List α} {a : α} (ha : a ∈ l)
    (hp : p a = true) (hl : (l.filter p).length ≤ 1) : l.filter p = [a] := by
  have hm : a ∈ l.filter p := List.mem_filter.mpr ⟨ha, hp⟩
  match hf : l.filter p with
  | [] => rw [hf] at hm; cases hm
  | [b] => rw [hf, List.mem_singleton] at hm; rw [hm]
  | _ :: _ :: _ => rw [hf] at hl; simp at hl

theorem length_filter_le_one {α : Type} {p : α → Bool} {l : List α}
    (h : l.Pairwise fun a b => ¬ (p a = true ∧ p b = true)) : (l.filter p).length ≤ 1 := by
  match hf : l.filter p with
  | [] => exact Nat.zero_le _
  | [_] => exact Nat.le_refl _
  | a :: b :: _ =>
    have hw := h.filter p
    have hab : p a = true ∧ p b = true := by
      constructor
      · exact (List.mem_filter.mp (hf ▸ List.mem_cons_self)).2
      · exact (List.mem_filter.mp (hf ▸ List.mem_cons_of_mem _ List.mem_cons_self)).2
    rw [hf, List.pairwise_cons] at hw
    exact absurd hab (hw.1 b List.mem_cons_self)

namespace Member

theorem callExpr_eq_iff {m : Member} : m.callExpr = "this.contract." ++ m.name ↔ m.callKey = m.name := by
  rw [callExpr]
  constructor
  · intro h
    by_cases hk : m.callKey = m.name
    · exact hk
    · rw [if_neg hk, ← String.toList_inj] at h
      simp at h
  · intro hk
    rw [if_pos hk]

section
variable {functions : List Abi.Entry} {f : Abi.Entry}

theorem callKey_eq_name_iff {contract : String} {m : Member} (hm : BuiltFrom contract functions f m) :
    m.callKey = m.name ↔ isOverloaded functions f = false := by
  rw [hm.callKey, hm.name]
  cases isOverloaded functions f with
  | false => simp
  | true =>
    simp only [if_true, Bool.true_eq_false, iff_false]
    intro h
    have hl := congrArg (List.length ∘ String.toList) h
    simp [Abi.Entry.toList_signature] at hl

theorem filter_name_eq (hf : f ∈ functions) (h : isOverloaded functions f = false) :
    functions.filter (·.name == f.name) = [f] := by
  apply filter_eq_singleton hf (beq_self_eq_true f.name)
  rw [← List.countP_eq_length_filter]
  exact Nat.le_of_eq ((isOverloaded_iff hf).mp h)

theorem filter_signature_eq (hf : f ∈ functions) (hform : ∀ e ∈ functions, e.HasProperSignature)
    (hdistinct : functions.Pairwise fun e e' => ¬ (e.name = e'.name ∧ e.shapes = e'.shapes)) :
    functions.filter (·.signature == f.signature) = [f] := by
  refine filter_eq_singleton hf (beq_self_eq_true f.signature) (length_filter_le_one ?_)
  -- two functions of one signature would agree in name and types
  refine hdistinct.imp_of_mem fun {e e'} he he' hne hs => hne ?_
  rw [beq_iff_eq, beq_iff_eq] at hs
  exact Abi.Entry.signature_inj (hform e he) (hform e' he') (hs.1.trans hs.2.symm)

end

/-- **The key of a member finds the function that the member is built from, and no other one; it is
called by its name exactly if no other function has that name.** -/
theorem callKey_selects (contract : String) {abi : List Json} {entries : List Abi.Entry}
    (hread : abi.mapM Abi.Entry.ofJson = .ok entries)
    (hform : ∀ e ∈ entries, e.isFunction = true → e.HasProperSignature)
    (hdistinct : (entries.filter (·.isFunction)).Pairwise fun e e' =>
      ¬ (e.name = e'.name ∧ e.shapes = e'.shapes)) :
    List.Forall₂ (fun v (e : Abi.Entry) => e.isFunction = Abi.declaresFunction v) abi entries ∧
    List.Forall₂ (fun f m =>
        BuiltFrom contract (entries.filter (·.isFunction)) f m ∧
        entries.filter (·.answersTo m.callKey) = [f] ∧
        (m.callExpr = "this.contract." ++ m.name ↔
          (entries.filter (·.isFunction)).countP (·.name == f.name) = 1))
      (entries.filter (·.isFunction)) (ofEntries contract entries) := by
  refine ⟨(mapM_eq_ok_iff.mp hread).imp fun _ _ => Abi.isFunction_of_ofJson, ?_⟩
  have hform' : ∀ e ∈ entries.filter (·.isFunction), e.HasProperSignature := by
    intro e he
    obtain ⟨he, hfun⟩ := List.mem_filter.mp he
    exact hform e he hfun
  have hall : ∀ f ∈ entries.filter (·.isFunction), f ∈ entries.filter (·.isFunction) := fun _ => id
  apply ((List.forall₂_and_left _ _).mpr ⟨hall, ofEntries_builtFrom contract entries⟩).imp
  rintro f m ⟨hf, hm⟩
  refine ⟨hm, ?_, ?_⟩
  · rw [Abi.Entry.filter_answersTo]
    cases ho : isOverloaded (entries.filter (·.isFunction)) f with
    | false =>
      have hk : m.callKey = f.name := by rw [hm.callKey, ho]; rfl
      have hp : f.name.toList.contains '(' = false := by
        rw [← Bool.not_eq_true, List.contains_iff_mem]
        exact (hform' f hf).1
      simp only [hk, hp, Bool.false_eq_true, if_false]
      exact filter_name_eq hf ho
    | true =>
      have hk : m.callKey = f.signature := by rw [hm.callKey, ho]; rfl
      simp only [hk, Abi.Entry.contains_signature, if_true]
      exact filter_signature_eq hf hform' hdistinct
  · rw [callExpr_eq_iff, callKey_eq_name_iff hm, isOverloaded_iff hf]

def exchange : List Json := [
  .obj [("type", .str "event"), ("name", .str "fill"), ("inputs", .arr [])],
  .obj [("type", .str "function"), ("name", .str "fill"), ("inputs", .arr [
    .obj [("name", .str "orders"), ("type", .str "tuple[]"), ("components", .arr [
      .obj [("name", .str "maker"), ("type", .str "address")],
      .obj [("name", .str "amount"), ("type", .str "uint256")]])]])],
  .obj [("name", .str "fill"), ("inputs", .arr [
    .obj [("name", .str "id"), ("type", .str "uint256")]])],
  .obj [("type", .str "function"), ("name", .str "deployable")]]

def exchangeEntries : List Abi.Entry := [
  ⟨"fill", [], false, .str "event"⟩,
  ⟨"fill", [⟨"orders", .tuple "[]" [.elementary "address", .elementary "uint256"]⟩], false,
    Abi.Entry.functionKind⟩,
  ⟨"fill", [⟨"id", .elementary "uint256"⟩], false, Abi.Entry.functionKind⟩,
  ⟨"deployable", [], false, Abi.Entry.functionKind⟩]

theorem callKey_selects_exchange :
    exchange.mapM Abi.Entry.ofJson = .ok exchangeEntries ∧
    (∀ e ∈ exchangeEntries, e.isFunction = true → e.HasProperSignature) ∧
    ((exchangeEntries.filter (·.isFunction)).Pairwise fun e e' =>
      ¬ (e.name = e'.name ∧ e.shapes = e'.shapes)) ∧
    (ofEntries "Exchange" exchangeEntries).map (·.callKey) =
      ["fill((address,uint256)[])", "fill(uint256)", "deployable"] ∧
    ∀ p ∈ (exchangeEntries.filter (·.isFunction)).zip (ofEntries "Exchange" exchangeEntries),
      exchangeEntries.filter (·.answersTo p.2.callKey) = [p.1] := by
  have hread : exchange.mapM Abi.Entry.ofJson = .ok exchangeEntries := rfl
  have hform : ∀ e ∈ exchangeEntries, e.isFunction = true → e.HasProperSignature := by decide
  have hdistinct : (exchangeEntries.filter (·.isFunction)).Pairwise fun e e' =>
      ¬ (e.name = e'.name ∧ e.shapes = e'.shapes) := by
    simp [exchangeEntries, Abi.Entry.isFunction, Abi.Entry.functionKind, Abi.Entry.shapes]
  refine ⟨hread, hform, hdistinct, by decide, fun p hp => ?_⟩
  exact (List.forall₂_zip (callKey_selects "Exchange" hread hform hdistinct).2 hp).2.1

end Member

end ContractBindings
