import ContractBindings.Proofs.Settings.Completion

/-!
# Values that refer to variables

The values in a file are resolved with the variables that are set around it.
Once more of them are set, the file has the same names, and a value without a
null character stays one: only a reference brings other text into a value, and
what a new variable brings has no null character.
-/

namespace ContractBindings

namespace EnvFile

variable {outer outer' : Environment} {known known' : Keyed (Option String)}
  {value? value?' : String → Option String} {ss : List Statement} {o : Except Error Unit}

def Clearer (v v' : String) : Prop := Text.hasNull v = false → Text.hasNull v' = false

def Restated (p p' : String × Option String) : Prop := p.1 = p'.1 ∧ Option.Rel Clearer p.2 p'.2

theorem clearer_ofList {cs cs' : List Char} (h : Char.ofNat 0 ∉ cs → Char.ofNat 0 ∉ cs') :
    Clearer (String.ofList cs) (String.ofList cs') := by
  simpa only [Clearer, hasNull_eq_false_iff, String.toList_ofList] using h

/-! ## Keyed lists of restated entries -/

theorem restated_insert {name : String} {x x' : Option String} (h : List.Forall₂ Restated known known')
    (hx : Option.Rel Clearer x x') :
    List.Forall₂ Restated (known.insert name x) (known'.insert name x') := by
  induction h with
  | nil => exact .cons ⟨rfl, hx⟩ .nil
  | @cons p p' m m' hp h ih =>
    obtain ⟨n, y⟩ := p
    obtain ⟨n', y'⟩ := p'
    obtain ⟨rfl, hy⟩ := hp
    by_cases hn : n = name
    · rw [Keyed.insert, Keyed.insert, if_pos hn, if_pos hn]
      exact .cons ⟨rfl, hx⟩ h
    · rw [Keyed.insert, Keyed.insert, if_neg hn, if_neg hn]
      exact .cons ⟨rfl, hy⟩ ih

theorem restated_get? (h : List.Forall₂ Restated known known') (name : String) :
    Option.Rel (Option.Rel Clearer) (known.get? name) (known'.get? name) := by
  induction h with
  | nil => exact .none
  | @cons p p' m m' hp h ih =>
    obtain ⟨n, y⟩ := p
    obtain ⟨n', y'⟩ := p'
    obtain ⟨rfl, hy⟩ := hp
    by_cases hn : n = name
    · rw [Keyed.get?, Keyed.get?, if_pos hn, if_pos hn]
      exact .some hy
    · rw [Keyed.get?, Keyed.get?, if_neg hn, if_neg hn]
      exact ih

theorem restated_areSet {env : Environment} (h : List.Forall₂ Restated known known')
    (hset : env.AreSet known) : env.AreSet known' := by
  induction h with
  | nil => exact hset
  | @cons p p' m m' hp h ih =>
    obtain ⟨n, x⟩ := p
    obtain ⟨n', x'⟩ := p'
    obtain ⟨rfl, hx⟩ := hp
    obtain ⟨hset, hrest⟩ := List.forall_mem_cons.mp hset
    refine List.forall_mem_cons.mpr ⟨fun hv' => ?_, ih hrest⟩
    cases hx with
    | some _ => exact hset rfl
    | none => cases hv'

theorem restated_split {before after m' : Keyed (Option String)} {name value : String}
    (h : List.Forall₂ Restated (before ++ (name, some value) :: after) m') :
    ∃ before' value' after', m' = before' ++ (name, some value') :: after' ∧
      List.Forall₂ Restated before before' ∧ Clearer value value' := by
  induction before generalizing m' with
  | nil =>
    obtain ⟨⟨name', x'⟩, after', hp, -, rfl⟩ := List.forall₂_cons_left_iff.mp h
    obtain ⟨rfl, hx⟩ := hp
    cases hx with
    | some hv => exact ⟨[], _, after', rfl, .nil, hv⟩
  | cons p before ih =>
    obtain ⟨p', rest', hp, hrest, rfl⟩ := List.forall₂_cons_left_iff.mp h
    obtain ⟨before', value', after', rfl, hb, hv⟩ := ih hrest
    exact ⟨p' :: before', value', after', rfl, .cons hp hb, hv⟩

/-! ## Resolving the references of a value -/

def lookUp (outer : Environment) (known : Keyed (Option String)) (name : String) : Option String :=
  outer.get? name <|> (known.get? name).map (·.getD "")

theorem lookUp_clear (hg : Environment.Grown outer outer') (h : List.Forall₂ Restated known known')
    (name : String) (fallback : List Char)
    (hc : Char.ofNat 0 ∉ (lookUp outer known name).elim fallback String.toList) :
    Char.ofNat 0 ∉ (lookUp outer' known' name).elim fallback String.toList := by
  unfold lookUp at hc ⊢
  cases ho : outer.get? name with
  | some v =>
    rw [ho] at hc
    rw [hg.keeps name v ho]
    exact hc
  | none =>
    simp only [ho, Option.orElse_eq_orElse, Option.orElse_eq_or, Option.none_or] at hc
    cases ho' : outer'.get? name with
    | some v =>
      rcases hg.clean name v ho' with hv | hv
      · rw [ho] at hv
        cases hv
      · exact hasNull_eq_false_iff.mp hv
    | none =>
      simp only [Option.orElse_eq_orElse, Option.orElse_eq_or, Option.none_or]
      have hrel := restated_get? h name
      generalize known.get? name = x, known'.get? name = x' at hrel hc
      cases hrel with
      | none => exact hc
      | some hx =>
        cases hx with
        | none => exact hc
        | some hv => exact hasNull_eq_false_iff.mp (hv (hasNull_eq_false_iff.mpr hc))

theorem interpolate_clear
    (h : ∀ name fallback, Char.ofNat 0 ∉ (value? name).elim fallback String.toList →
      Char.ofNat 0 ∉ (value?' name).elim fallback String.toList) :
    ∀ (fuel : Nat) (cs : List Char), Char.ofNat 0 ∉ interpolate value? fuel cs →
      Char.ofNat 0 ∉ interpolate value?' fuel cs := by
  intro fuel
  induction fuel with
  | zero =>
    intro cs hc
    unfold interpolate at hc ⊢
    exact hc
  | succ fuel ih =>
    intro cs hc
    cases cs with
    | nil => simp [interpolate]
    | cons c cs =>
      unfold interpolate at hc ⊢
      cases hr : readReference? (c :: cs) with
      | none =>
        rw [hr] at hc
        simp only [List.mem_cons, not_or] at hc ⊢
        exact ⟨hc.1, ih cs hc.2⟩
      | some r =>
        obtain ⟨⟨name, fallback⟩, rest⟩ := r
        rw [hr] at hc
        simp only [List.mem_append, not_or] at hc ⊢
        exact ⟨h _ _ hc.1, ih rest hc.2⟩

/-! ## Resolving a file -/

def resolveOne (outer : Environment) (known : Keyed (Option String)) (s : Statement) :
    Keyed (Option String) :=
  known.insert s.name (s.value.map fun v =>
    String.ofList (interpolate (lookUp outer known) v.toList.length v.toList))

theorem resolve_eq (outer : Environment) (ss : List Statement) :
    resolve outer ss = ss.foldl (resolveOne outer) [] := rfl

theorem resolveOne_restated (hg : Environment.Grown outer outer')
    (h : List.Forall₂ Restated known known') (s : Statement) :
    List.Forall₂ Restated (resolveOne outer known s) (resolveOne outer' known' s) := by
  apply restated_insert h
  cases s.value with
  | none => exact .none
  | some v => exact .some (clearer_ofList (interpolate_clear (lookUp_clear hg h) _ _))

theorem resolve_restated (hg : Environment.Grown outer outer') (ss : List Statement) :
    List.Forall₂ Restated (resolve outer ss) (resolve outer' ss) := by
  rw [resolve_eq, resolve_eq]
  have hfold : ∀ {known known' : Keyed (Option String)}, List.Forall₂ Restated known known' →
      List.Forall₂ Restated (ss.foldl (resolveOne outer) known)
        (ss.foldl (resolveOne outer') known') := by
    induction ss with
    | nil => exact fun h => h
    | cons s ss ih => exact fun h => ih (resolveOne_restated hg h s)
  exact hfold .nil

theorem nodup_keys_resolve (outer : Environment) (ss : List Statement) :
    (resolve outer ss).keys.Nodup := by
  rw [resolve_eq]
  have hfold : ∀ {known : Keyed (Option String)}, known.keys.Nodup →
      (ss.foldl (resolveOne outer) known).keys.Nodup := by
    induction ss with
    | nil => exact fun h => h
    | cons s ss ih => exact fun h => ih (Keyed.nodup_keys_insert h _ _)
  exact hfold List.nodup_nil

/-! ## Taking in a file for the second time -/

/-- A file is left off at a variable whose value has a null character, but has none once the variables
before it are set. -/
def LeavesOff (env env' : Environment) (ss : List Statement) : Prop :=
  ∃ before name value value' after, resolve env ss = before ++ (name, some value) :: after ∧
    env.complete before = (env', .ok ()) ∧ env'.get? name = none ∧ Text.hasNull name = false ∧
    Text.hasNull value = true ∧ (name, some value') ∈ resolve env' ss ∧ Text.hasNull value' = false

theorem set_clearer {env : Environment} {name value value' : String} {e : Error}
    (h : env.set name value = .error e) (hv : Clearer value value') :
    env.set name value' = .error e ∨ (Text.hasNull name = false ∧ Text.hasNull value = true ∧
      Text.hasNull value' = false) := by
  cases hn : Text.hasNull name with
  | true => exact .inl (by simpa [Environment.set, hn] using h)
  | false =>
    cases hc : Text.hasNull value with
    | false =>
      left
      rw [Environment.set_of_clean hn hc] at h
      rw [Environment.set_of_clean hn (hv hc)]
      split at h
      · next hbad => rw [if_pos hbad, h]
      · cases h
    | true =>
      cases hc' : Text.hasNull value' with
      | true => exact .inl (by simpa [Environment.set, hc, hc'] using h)
      | false => exact .inr ⟨rfl, rfl, rfl⟩

/-- A file is taken in a second time as it was the first time, unless it was left off. -/
theorem complete_again (h : outer.complete (resolve outer ss) = (outer', o)) :
    outer'.complete (resolve outer' ss) = (outer', o) ∨ LeavesOff outer outer' ss := by
  have hgrown := Environment.grown_complete outer (resolve outer ss)
  rw [h] at hgrown
  have hrel := resolve_restated hgrown ss
  cases o with
  | ok u =>
    have hset := restated_areSet hrel (Environment.areSet_of_complete h)
    exact .inl (Environment.complete_of_areSet hset)
  | error e =>
    obtain ⟨before, name, value, after, hsplit, hbefore, hn, hs⟩ := Environment.complete_eq_error h
    rw [hsplit] at hrel
    obtain ⟨before', value', after', hsplit', hb, hv⟩ := restated_split hrel
    have hset := restated_areSet hb (Environment.areSet_of_complete hbefore)
    rcases set_clearer hs hv with hstop | ⟨hname, hnull, hclear⟩
    · left
      rw [hsplit', Environment.complete_append (Environment.complete_of_areSet hset),
        Environment.complete_error hn hstop]
    · right
      refine ⟨before, name, value, value', after, hsplit, hbefore, hn, hname, hnull, ?_, hclear⟩
      rw [hsplit']
      exact List.mem_append_right _ List.mem_cons_self

theorem LeavesOff.complete (h : LeavesOff outer outer' ss) :
    outer.complete (resolve outer ss) = (outer', .error .nullInVariable) := by
  obtain ⟨before, name, value, -, after, hsplit, hbefore, hn, hname, hnull, -⟩ := h
  rw [hsplit, Environment.complete_append hbefore]
  exact Environment.complete_error hn (by simp [Environment.set, hnull]) _

/-- What was left off is taken in further the second time, or fails because of a name. -/
theorem LeavesOff.again (h : LeavesOff outer outer' ss) :
    outer'.complete (resolve outer' ss) = (outer', .error .badVariableName) ∨
      (outer'.complete (resolve outer' ss)).1 ≠ outer' := by
  have hgrown := Environment.grown_complete outer (resolve outer ss)
  rw [h.complete] at hgrown
  have hrel := resolve_restated hgrown ss
  obtain ⟨before, name, value, value', after, hsplit, hbefore, hn, hname, hnull, hm, hclear⟩ := h
  rw [hsplit] at hrel
  obtain ⟨before', value'', after', hsplit', hb, -⟩ := restated_split hrel
  have hset := restated_areSet hb (Environment.areSet_of_complete hbefore)
  have hvalue : value' = value'' := by
    have hnodup := nodup_keys_resolve outer' ss
    have hfound := Keyed.get?_of_mem hnodup hm
    rw [hsplit'] at hfound hnodup
    rw [Keyed.get?_of_mem hnodup (List.mem_append_right _ List.mem_cons_self)] at hfound
    cases hfound
    rfl
  subst hvalue
  rw [hsplit', Environment.complete_append (Environment.complete_of_areSet hset)]
  have hs : outer'.set name value' = _ := Environment.set_of_clean hname hclear
  split at hs
  · exact .inl (Environment.complete_error hn hs _)
  · right
    rw [Environment.complete_ok hn hs]
    intro hsame
    have hg := Environment.grown_complete (outer'.insert name value') after'
    rw [hsame] at hg
    have hfound := hg.keeps name value' (Keyed.get?_insert_self _ _ _)
    rw [hn] at hfound
    cases hfound

end EnvFile

end ContractBindings
