import ContractBindings.Proofs.Keyed
import ContractBindings.Settings.Environment

/-!
# Variables that a file adds

A file adds to the environment the variables that are not set yet. None that is
set changes, and what is set already is not added again. The values in a file
can refer to variables, so they may be other ones once some variables are set;
but the names are the same, and a value without a null character stays one.
-/

namespace ContractBindings

theorem hasNull_eq_false_iff {s : String} : Text.hasNull s = false ↔ Char.ofNat 0 ∉ s.toList := by
  simp [Text.hasNull]

namespace Environment

variable {env env' : Environment} {vs : Keyed (Option String)} {name value n : String}

structure Grown (env env' : Environment) : Prop where
  keeps : ∀ n v, env.get? n = some v → env'.get? n = some v
  clean : ∀ n v, env'.get? n = some v → env.get? n = some v ∨ Text.hasNull v = false

theorem Grown.refl (env : Environment) : Grown env env := ⟨fun _ _ h => h, fun _ _ h => .inl h⟩

theorem grown_insert (hn : env.get? name = none) (hv : Text.hasNull value = false) :
    Grown env (env.insert name value) := by
  refine ⟨fun n v h => ?_, fun n v h => ?_⟩
  · have hne : name ≠ n := by
      intro he
      rw [he, h] at hn
      cases hn
    rw [Keyed.get?_insert_of_ne hne]
    exact h
  · by_cases he : name = n
    · subst he
      rw [Keyed.get?_insert_self] at h
      cases h
      exact .inr hv
    · rw [Keyed.get?_insert_of_ne he] at h
      exact .inl h

theorem Grown.trans {env'' : Environment} (h : Grown env env') (h' : Grown env' env'') :
    Grown env env'' := by
  refine ⟨fun n v hn => h'.keeps n v (h.keeps n v hn), fun n v hn => ?_⟩
  rcases h'.clean n v hn with h₁ | h₁
  · exact h.clean n v h₁
  · exact .inr h₁

theorem set_of_clean (hn : Text.hasNull name = false) (hv : Text.hasNull value = false) :
    env.set name value =
      if name.toList.contains '=' then .error .badVariableName else .ok (env.insert name value) := by
  simp [set, hn, hv]

theorem set_eq_ok (h : env.set name value = .ok env') :
    Text.hasNull value = false ∧ env' = env.insert name value := by
  cases hn : Text.hasNull name with
  | true => simp [set, hn] at h
  | false =>
    cases hv : Text.hasNull value with
    | true => simp [set, hv] at h
    | false =>
      rw [set_of_clean hn hv] at h
      split at h
      · cases h
      · cases h
        exact ⟨rfl, rfl⟩

/-! ## One variable after the other -/

theorem complete_set (h : (env.get? name).isSome = true) (value : String)
    (vs : Keyed (Option String)) : complete env ((name, some value) :: vs) = complete env vs := by
  rw [complete, if_pos h]

theorem complete_ok (h : env.get? name = none) (hs : env.set name value = .ok env')
    (vs : Keyed (Option String)) : complete env ((name, some value) :: vs) = complete env' vs := by
  rw [complete, h, if_neg (by simp), hs]

theorem complete_error {e : Error} (h : env.get? name = none) (hs : env.set name value = .error e)
    (vs : Keyed (Option String)) : complete env ((name, some value) :: vs) = (env, .error e) := by
  rw [complete, h, if_neg (by simp), hs]

theorem grown_complete (env : Environment) (vs : Keyed (Option String)) :
    Grown env (complete env vs).1 := by
  fun_induction complete env vs with
  | case1 env => exact .refl env
  | case2 env name vs ih => exact ih
  | case3 env name value vs hset ih => exact ih
  | case4 env name value vs hn made hs ih =>
    obtain ⟨hv, rfl⟩ := set_eq_ok hs
    exact (grown_insert (Option.not_isSome_iff_eq_none.mp hn) hv).trans ih
  | case5 env name value vs hn e hs => exact .refl env

/-- A file that is taken in whole gives each variable that was not set its value. -/
theorem get?_complete (hnodup : vs.keys.Nodup) (h : complete env vs = (env', .ok ())) (n : String) :
    env'.get? n = (env.get? n <|> (vs.get? n).join) := by
  fun_induction complete env vs with
  | case1 env =>
    cases h
    simp [Keyed.get?]
  | case2 env name vs ih =>
    rw [Keyed.keys_cons, List.nodup_cons] at hnodup
    rw [ih hnodup.2 h, Keyed.get?]
    by_cases hname : name = n
    · subst hname
      simp [Keyed.get?_eq_none hnodup.1]
    · simp [hname]
  | case3 env name value vs hset ih =>
    rw [Keyed.keys_cons, List.nodup_cons] at hnodup
    rw [ih hnodup.2 h, Keyed.get?]
    by_cases hname : name = n
    · subst hname
      obtain ⟨w, hw⟩ := Option.isSome_iff_exists.mp hset
      simp [hw]
    · simp [hname]
  | case4 env name value vs hn made hs ih =>
    rw [Keyed.keys_cons, List.nodup_cons] at hnodup
    rw [Option.not_isSome_iff_eq_none] at hn
    obtain ⟨-, rfl⟩ := set_eq_ok hs
    rw [ih hnodup.2 h, Keyed.get?]
    by_cases hname : name = n
    · subst hname
      simp [hn, Keyed.get?_insert_self]
    · simp [hname, Keyed.get?_insert_of_ne]
  | case5 env name value vs hn e hs => cases h

/-! ## Taking in the first variables, and then the others -/

theorem complete_append (h : complete env vs = (env', .ok ())) (rest : Keyed (Option String)) :
    complete env (vs ++ rest) = complete env' rest := by
  fun_induction complete env vs with
  | case1 env =>
    cases h
    rfl
  | case2 env name vs ih => exact ih h
  | case3 env name value vs hset ih =>
    rw [List.cons_append, complete_set hset]
    exact ih h
  | case4 env name value vs hn made hs ih =>
    rw [List.cons_append, complete_ok (Option.not_isSome_iff_eq_none.mp hn) hs]
    exact ih h
  | case5 env name value vs hn e hs => cases h

/-- What fails fails at a variable, when those before it are taken in. -/
theorem complete_eq_error {e : Error} (h : complete env vs = (env', .error e)) :
    ∃ before name value after, vs = before ++ (name, some value) :: after ∧
      complete env before = (env', .ok ()) ∧ env'.get? name = none ∧
      env'.set name value = .error e := by
  fun_induction complete env vs with
  | case1 env => cases h
  | case2 env name vs ih =>
    obtain ⟨before, name', value', after, rfl, hbefore, hstop⟩ := ih h
    exact ⟨(name, none) :: before, name', value', after, rfl, hbefore, hstop⟩
  | case3 env name value vs hset ih =>
    obtain ⟨before, name', value', after, rfl, hbefore, hstop⟩ := ih h
    refine ⟨(name, some value) :: before, name', value', after, rfl, ?_, hstop⟩
    rw [complete_set hset, hbefore]
  | case4 env name value vs hn made hs ih =>
    obtain ⟨before, name', value', after, rfl, hbefore, hstop⟩ := ih h
    refine ⟨(name, some value) :: before, name', value', after, rfl, ?_, hstop⟩
    rw [complete_ok (Option.not_isSome_iff_eq_none.mp hn) hs, hbefore]
  | case5 env name value vs hn e' hs =>
    cases h
    exact ⟨[], name, value, vs, rfl, rfl, Option.not_isSome_iff_eq_none.mp hn, hs⟩

/-! ## What is set already -/

def AreSet (vs : Keyed (Option String)) (env : Environment) : Prop :=
  ∀ p ∈ vs, p.2.isSome = true → (env.get? p.1).isSome = true

theorem Grown.isSome (h : Grown env env') (hn : (env.get? n).isSome = true) :
    (env'.get? n).isSome = true := by
  obtain ⟨w, hw⟩ := Option.isSome_iff_exists.mp hn
  rw [h.keeps n w hw]
  rfl

/-- What is taken in is set from then on. -/
theorem areSet_of_complete (h : complete env vs = (env', .ok ())) : AreSet vs env' := by
  fun_induction complete env vs with
  | case1 env => exact List.forall_mem_nil _
  | case2 env name vs ih => exact List.forall_mem_cons.mpr ⟨fun he => Bool.noConfusion he, ih h⟩
  | case3 env name value vs hset ih =>
    have hg := grown_complete env vs
    rw [h] at hg
    exact List.forall_mem_cons.mpr ⟨fun _ => hg.isSome hset, ih h⟩
  | case4 env name value vs hn made hs ih =>
    have hg := grown_complete made vs
    rw [h] at hg
    obtain ⟨-, rfl⟩ := set_eq_ok hs
    refine List.forall_mem_cons.mpr ⟨fun _ => hg.isSome ?_, ih h⟩
    rw [Keyed.get?_insert_self]
    rfl
  | case5 env name value vs hn e hs => cases h

theorem complete_of_areSet (h : AreSet vs env) : complete env vs = (env, .ok ()) := by
  induction vs with
  | nil => rfl
  | cons p vs ih =>
    obtain ⟨name, x⟩ := p
    obtain ⟨hset, hrest⟩ := List.forall_mem_cons.mp h
    cases x with
    | none => exact ih hrest
    | some value => rw [complete_set (hset rfl), ih hrest]

end Environment

end ContractBindings
