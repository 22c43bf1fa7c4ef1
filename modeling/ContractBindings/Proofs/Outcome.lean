import Mathlib.Data.List.Forall2

/-!
# Outcomes

How work that can fail comes to a result: every step of it came to one.
-/

namespace ContractBindings

variable {ε α β : Type}

theorem except_ok_bind (a : α) (f : α → Except ε β) : (Except.ok a >>= f) = f a := rfl

theorem except_bind_eq_ok {x : Except ε α} {f : α → Except ε β} {b : β} :
    x >>= f = .ok b ↔ ∃ a, x = .ok a ∧ f a = .ok b := by
  cases x with
  | error e =>
    constructor
    · intro h; cases h
    · rintro ⟨a, h, -⟩; cases h
  | ok a =>
    constructor
    · intro h; exact ⟨a, rfl, h⟩
    · rintro ⟨a', h, hf⟩; cases h; exact hf

theorem except_pure_eq_ok {a b : α} : (pure a : Except ε α) = .ok b ↔ a = b := by
  constructor
  · intro h; cases h; rfl
  · rintro rfl; rfl

theorem except_mapError_eq_ok {ε' : Type} {x : Except ε α} {f : ε → ε'} {a : α} :
    x.mapError f = .ok a ↔ x = .ok a := by
  cases x <;> simp [Except.mapError]

theorem mapM_eq_ok_iff {f : α → Except ε β} : ∀ {xs : List α} {ys : List β},
    xs.mapM f = .ok ys ↔ List.Forall₂ (fun x y => f x = .ok y) xs ys
  | [], ys => by
    rw [List.mapM_nil, except_pure_eq_ok, List.forall₂_nil_left_iff]
    exact eq_comm
  | x :: xs, ys => by
    rw [List.mapM_cons, except_bind_eq_ok, List.forall₂_cons_left_iff]
    constructor
    · rintro ⟨y, hy, h⟩
      obtain ⟨ys', hs, h⟩ := except_bind_eq_ok.mp h
      exact ⟨y, ys', hy, mapM_eq_ok_iff.mp hs, (except_pure_eq_ok.mp h).symm⟩
    · rintro ⟨y, ys', hy, hs, rfl⟩
      exact ⟨y, hy, except_bind_eq_ok.mpr ⟨ys', mapM_eq_ok_iff.mpr hs, rfl⟩⟩

theorem exists_mapM_eq_ok {f : α → Except ε β} {P : β → Prop} : ∀ {xs : List α},
    (∀ x ∈ xs, ∃ y, f x = .ok y ∧ P y) → ∃ ys, xs.mapM f = .ok ys ∧ ∀ y ∈ ys, P y
  | [], _ => ⟨[], rfl, by simp⟩
  | x :: xs, h => by
    obtain ⟨y, hy, hP⟩ := h x List.mem_cons_self
    obtain ⟨ys, hys, hPs⟩ := exists_mapM_eq_ok fun x' hx' => h x' (List.mem_cons_of_mem x hx')
    refine ⟨y :: ys, mapM_eq_ok_iff.mpr (.cons hy (mapM_eq_ok_iff.mp hys)), ?_⟩
    exact List.forall_mem_cons.mpr ⟨hP, hPs⟩

theorem exists_mapM_of_forall {f : α → Except ε β} {xs : List α} (h : ∀ x ∈ xs, ∃ y, f x = .ok y) :
    ∃ ys, xs.mapM f = .ok ys := by
  obtain ⟨ys, hys, -⟩ := exists_mapM_eq_ok (P := fun _ => True) fun x hx =>
    (h x hx).imp fun _ hy => ⟨hy, trivial⟩
  exact ⟨ys, hys⟩

/-- Lists are related item by item exactly if they come to the same results, when this holds of their
items. -/
theorem forall₂_iff_mapM_eq {f : α → Except ε β} {R : α → α → Prop} {xs xs' : List α}
    {ys ys' : List β} (h : xs.mapM f = .ok ys) (h' : xs'.mapM f = .ok ys')
    (hR : ∀ x ∈ xs, ∀ x' ∈ xs', ∀ y y', f x = .ok y → f x' = .ok y' → (R x x' ↔ y = y')) :
    List.Forall₂ R xs xs' ↔ ys = ys' := by
  rw [mapM_eq_ok_iff] at h h'
  induction h generalizing xs' ys' with
  | nil => cases h' <;> simp
  | @cons x y xs ys hy _ ih =>
    cases h' with
    | nil => simp
    | @cons x' y' xs' ys' hy' hys' =>
      have hhead := hR x List.mem_cons_self x' List.mem_cons_self y y' hy hy'
      have htail := ih hys' fun a ha a' ha' =>
        hR a (List.mem_cons_of_mem x ha) a' (List.mem_cons_of_mem x' ha')
      rw [List.forall₂_cons, List.cons.injEq, hhead, htail]

end ContractBindings
