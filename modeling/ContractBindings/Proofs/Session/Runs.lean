import ContractBindings.Session

/-!
# Runs of stages

`Runs work s r t` says that a stage started in the state `s` comes to the
outcome `r` and leaves the state `t`. Each way to put stages together, and
each basic stage, has one lemma that says which runs it has; a longer stage
is taken apart with these.
-/

namespace ContractBindings

abbrev Stage (σ : Type) := ExceptT Error (StateM σ)

/-- A stage runs from one state to another, with an outcome. -/
def Runs {σ α : Type} (work : Stage σ α) (s : σ) (r : Except Error α) (t : σ) : Prop :=
  work.run.run s = (r, t)

section
variable {σ α β : Type} {s t : σ}

theorem runs_total (work : Stage σ α) (s : σ) : ∃ r t, Runs work s r t := ⟨_, _, rfl⟩

theorem exists_ok_of_isSome {work : Stage σ α} (h : (work.run.run s).1.toOption.isSome = true) :
    ∃ a t, Runs work s (.ok a) t := by
  obtain ⟨r, t, hrun⟩ := runs_total work s
  rw [show work.run.run s = (r, t) from hrun] at h
  cases r with
  | ok a => exact ⟨a, t, hrun⟩
  | error e => cases h

theorem exists_runs_error {work : Stage σ α} {e : Error} (h : (work.run.run s).1 = .error e) :
    ∃ t, Runs work s (.error e) t :=
  ⟨_, Prod.ext h rfl⟩

theorem runs_unique {work : Stage σ α} {r r' : Except Error α} {t' : σ} (h : Runs work s r t)
    (h' : Runs work s r' t') : r = r' ∧ t = t' :=
  Prod.mk.inj (h.symm.trans h')

/-! ## Putting stages together -/

theorem runs_pure {a : α} {r : Except Error α} : Runs (pure a) s r t ↔ r = .ok a ∧ t = s := by
  constructor
  · intro h; cases h; exact ⟨rfl, rfl⟩
  · rintro ⟨rfl, rfl⟩; rfl

theorem runs_throw {e : Error} {r : Except Error α} :
    Runs (throw e) s r t ↔ r = .error e ∧ t = s := by
  constructor
  · intro h; cases h; exact ⟨rfl, rfl⟩
  · rintro ⟨rfl, rfl⟩; rfl

theorem run_bind_of_ok {x : Stage σ α} {f : α → Stage σ β} {a : α} {u : σ}
    (h : Runs x s (.ok a) u) : (x >>= f).run.run s = (f a).run.run u := by
  show (match x.run.run s with | (o, u) => ExceptT.bindCont f o u) = _
  rw [h]; rfl

theorem run_bind_of_error {x : Stage σ α} {f : α → Stage σ β} {e : Error} {u : σ}
    (h : Runs x s (.error e) u) : Runs (x >>= f) s (.error e) u := by
  show (match x.run.run s with | (o, u) => ExceptT.bindCont f o u) = _
  rw [h]; rfl

theorem runs_bind {x : Stage σ α} {f : α → Stage σ β} {r : Except Error β} :
    Runs (x >>= f) s r t ↔
      (∃ e, Runs x s (.error e) t ∧ r = .error e) ∨ ∃ a u, Runs x s (.ok a) u ∧ Runs (f a) u r t := by
  constructor
  · intro h
    obtain ⟨o, u, hx⟩ := runs_total x s
    cases o with
    | error e =>
      obtain ⟨rfl, rfl⟩ := runs_unique h (run_bind_of_error hx)
      exact Or.inl ⟨e, hx, rfl⟩
    | ok a => exact Or.inr ⟨a, u, hx, (run_bind_of_ok hx).symm.trans h⟩
  · rintro (⟨e, hx, rfl⟩ | ⟨a, u, hx, hf⟩)
    · exact run_bind_of_error hx
    · exact (run_bind_of_ok hx).trans hf

theorem runs_bind_of_ok {x : Stage σ α} {f : α → Stage σ β} {a : α} {u : σ}
    {r : Except Error β} (h : Runs x s (.ok a) u) : Runs (x >>= f) s r t ↔ Runs (f a) u r t := by
  rw [Runs, run_bind_of_ok h, Runs]

theorem runs_bind_of_error {x : Stage σ α} {f : α → Stage σ β} {e : Error} {u : σ}
    {r : Except Error β} (h : Runs x s (.error e) u) :
    Runs (x >>= f) s r t ↔ r = .error e ∧ t = u := by
  constructor
  · intro hr
    exact runs_unique hr (run_bind_of_error h)
  · rintro ⟨rfl, rfl⟩
    exact run_bind_of_error h

theorem runs_bind_ok {x : Stage σ α} {f : α → Stage σ β} {b : β} :
    Runs (x >>= f) s (.ok b) t ↔ ∃ a u, Runs x s (.ok a) u ∧ Runs (f a) u (.ok b) t := by
  rw [runs_bind]
  constructor
  · rintro (⟨e, -, h⟩ | h)
    · cases h
    · exact h
  · exact Or.inr

theorem runs_map {x : Stage σ α} {f : α → β} {r : Except Error β} :
    Runs (f <$> x) s r t ↔ ∃ o, Runs x s o t ∧ r = o.map f := by
  rw [← bind_pure_comp, runs_bind]
  constructor
  · rintro (⟨e, hx, rfl⟩ | ⟨a, u, hx, h⟩)
    · exact ⟨_, hx, rfl⟩
    · obtain ⟨rfl, rfl⟩ := runs_pure.mp h
      exact ⟨_, hx, rfl⟩
  · rintro ⟨o, hx, rfl⟩
    cases o with
    | error e => exact Or.inl ⟨e, hx, rfl⟩
    | ok a => exact Or.inr ⟨a, t, hx, runs_pure.mpr ⟨rfl, rfl⟩⟩

theorem run_tryCatch_of_ok {x : Stage σ α} {handler : Error → Stage σ α} {a : α} {u : σ}
    (h : Runs x s (.ok a) u) : Runs (tryCatch x handler) s (.ok a) u := by
  show StateT.run (ExceptT.tryCatch x handler) s = _
  unfold ExceptT.tryCatch ExceptT.mk
  rw [StateT.run_bind, show StateT.run x s = (.ok a, u) from h]; rfl

theorem run_tryCatch_of_error {x : Stage σ α} {handler : Error → Stage σ α} {e : Error} {u : σ}
    (h : Runs x s (.error e) u) : (tryCatch x handler).run.run s = (handler e).run.run u := by
  show StateT.run (ExceptT.tryCatch x handler) s = _
  unfold ExceptT.tryCatch ExceptT.mk
  rw [StateT.run_bind, show StateT.run x s = (.error e, u) from h]; rfl

theorem runs_tryCatch {x : Stage σ α} {handler : Error → Stage σ α} {r : Except Error α} :
    Runs (tryCatch x handler) s r t ↔
      (∃ a, Runs x s (.ok a) t ∧ r = .ok a) ∨
        ∃ e u, Runs x s (.error e) u ∧ Runs (handler e) u r t := by
  constructor
  · intro h
    obtain ⟨o, u, hx⟩ := runs_total x s
    cases o with
    | ok a =>
      obtain ⟨rfl, rfl⟩ := runs_unique h (run_tryCatch_of_ok hx)
      exact Or.inl ⟨a, hx, rfl⟩
    | error e => exact Or.inr ⟨e, u, hx, (run_tryCatch_of_error hx).symm.trans h⟩
  · rintro (⟨a, hx, rfl⟩ | ⟨e, u, hx, h⟩)
    · exact run_tryCatch_of_ok hx
    · exact (run_tryCatch_of_error hx).trans h

theorem run_bind_congr {x : Stage σ α} {f g : α → Stage σ β}
    (h : ∀ a u, Runs x s (.ok a) u → (f a).run.run u = (g a).run.run u) :
    (x >>= f).run.run s = (x >>= g).run.run s := by
  obtain ⟨o, u, hx⟩ := runs_total x s
  cases o with
  | error e => rw [run_bind_of_error hx, run_bind_of_error hx]
  | ok a => rw [run_bind_of_ok hx, run_bind_of_ok hx, h a u hx]

theorem run_tryCatch_congr {x y : Stage σ α} (handler : Error → Stage σ α)
    (h : x.run.run s = y.run.run s) : (tryCatch x handler).run.run s = (tryCatch y handler).run.run s := by
  obtain ⟨o, u, hx⟩ := runs_total x s
  have hy : Runs y s o u := h.symm.trans hx
  cases o with
  | ok a => rw [run_tryCatch_of_ok hx, run_tryCatch_of_ok hy]
  | error e => rw [run_tryCatch_of_error hx, run_tryCatch_of_error hy]

theorem runs_ofExcept {o r : Except Error α} : Runs (ofExcept o) s r t ↔ r = o ∧ t = s := by
  cases o with
  | ok a => exact runs_pure
  | error e => exact runs_throw

theorem runs_liftM {o r : Except Error α} : Runs (liftM o) s r t ↔ r = o ∧ t = s := by
  constructor
  · intro h; cases h; exact ⟨rfl, rfl⟩
  · rintro ⟨rfl, rfl⟩; rfl

theorem runs_throw_bind {e : Error} {f : α → Stage σ β} {r : Except Error β} :
    Runs (throw e >>= f) s r t ↔ r = .error e ∧ t = s :=
  runs_bind_of_error (runs_throw.mpr ⟨rfl, rfl⟩)

/-! ## Reading and changing the state -/

theorem runs_get {r : Except Error σ} : Runs get s r t ↔ r = .ok s ∧ t = s := by
  constructor
  · intro h; cases h; exact ⟨rfl, rfl⟩
  · rintro ⟨rfl, rfl⟩; rfl

theorem runs_modify {f : σ → σ} {r : Except Error PUnit} :
    Runs (modify f) s r t ↔ r = .ok () ∧ t = f s := by
  constructor
  · intro h; cases h; exact ⟨rfl, rfl⟩
  · rintro ⟨rfl, rfl⟩; rfl

theorem runs_get_bind {f : σ → Stage σ α} {r : Except Error α} :
    Runs (get >>= f) s r t ↔ Runs (f s) s r t :=
  runs_bind_of_ok (runs_get.mpr ⟨rfl, rfl⟩)

theorem runs_modify_bind {g : σ → σ} {f : PUnit → Stage σ α} {r : Except Error α} :
    Runs (modify g >>= f) s r t ↔ Runs (f ()) (g s) r t :=
  runs_bind_of_ok (runs_modify.mpr ⟨rfl, rfl⟩)

end

section
variable {α : Type} {s t : State}

/-! ## The log and the events -/

theorem runs_log_bind {level : Level} {message : String} {f : Unit → Session α}
    {r : Except Error α} :
    Runs (Session.log level message >>= f) s r t ↔
      Runs (f ()) { s with log := s.log ++ [⟨level, message⟩] } r t :=
  runs_modify_bind

theorem runs_record {e : Event} {r : Except Error Unit} :
    Runs (Session.record e) s r t ↔ r = .ok () ∧ t = { s with events := s.events ++ [e] } :=
  runs_modify

end

/-! ## Calls on the chain -/

namespace State

def after (s : State) (es : List Exchange) : State :=
  { s with events := s.events ++ es.map .chain }

variable (s : State) (es es' : List Exchange)

@[simp] theorem after_nil : s.after [] = s := by
  simp [after]

@[simp] theorem after_after : (s.after es).after es' = s.after (es ++ es') := by
  simp [after]

@[simp] theorem contracts_after : (s.after es).contracts = s.contracts := rfl

@[simp] theorem log_after : (s.after es).log = s.log := rfl

@[simp] theorem disk_after : (s.after es).disk = s.disk := rfl

@[simp] theorem exchanges_after : (s.after es).exchanges = s.exchanges ++ es := by
  rw [exchanges, exchanges, after, List.filterMap_append, List.filterMap_map]
  congr 1
  exact List.filterMap_some

end State

theorem runs_ask {chain : Chain} {c : Call} {s t : State} {r : Except Error c.Reply} :
    Runs (Session.ask chain c) s r t ↔
      r = chain s.exchanges c ∧ t = s.after [⟨c, chain s.exchanges c⟩] := by
  have hrun : Runs (Session.ask chain c) s (chain s.exchanges c)
      (s.after [⟨c, chain s.exchanges c⟩]) := by
    apply runs_get_bind.mpr
    apply (runs_bind_of_ok (runs_record.mpr ⟨rfl, rfl⟩)).mpr
    exact runs_ofExcept.mpr ⟨rfl, rfl⟩
  constructor
  · intro h
    exact runs_unique h hrun
  · rintro ⟨rfl, rfl⟩
    exact hrun

end ContractBindings
