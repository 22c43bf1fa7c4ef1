import ContractBindings.Proofs.Session.Keeps

/-!
# Stages side by side

Two stages run side by side if from related states they come to related
outcomes, with one error where they fail, and leave related states. What runs
side by side part by part does so as a whole, so that two builds are compared
at the parts in which they differ. Of the world outside only the answers to
the calls since a pair of starting states play a part (`Alike`).
-/

namespace ContractBindings

inductive Together {ε α β : Type} (Q : α → β → Prop) : Except ε α → Except ε β → Prop
  | ok {a : α} {b : β} (h : Q a b) : Together Q (.ok a) (.ok b)
  | error (e : ε) : Together Q (.error e) (.error e)

section
variable {ε ε' α β γ δ : Type} {P : α → β → Prop} {Q : γ → δ → Prop}

theorem Together.eq {r r' : Except ε α} (h : Together Eq r r') : r' = r := by
  cases h with
  | ok h => rw [h]
  | error e => rfl

theorem together_refl {P : α → α → Prop} (h : ∀ a, P a a) (r : Except ε α) : Together P r r := by
  cases r with
  | ok a => exact .ok (h a)
  | error e => exact .error e

theorem Together.bind {x : Except ε α} {y : Except ε β} {f : α → Except ε γ} {g : β → Except ε δ}
    (h : Together P x y) (hf : ∀ a b, P a b → Together Q (f a) (g b)) :
    Together Q (x >>= f) (y >>= g) := by
  cases h with
  | ok h => exact hf _ _ h
  | error e => exact .error e

theorem Together.mapError {x : Except ε α} {y : Except ε β} (h : Together P x y) (f : ε → ε') :
    Together P (x.mapError f) (y.mapError f) := by
  cases h with
  | ok h => exact .ok h
  | error e => exact .error (f e)

end

def Parallel {σ α β : Type} (R : σ → σ → Prop) (Q : α → β → Prop) (work : Stage σ α)
    (work' : Stage σ β) : Prop :=
  ∀ s s', R s s' → ∃ r r' t t', Runs work s r t ∧ Runs work' s' r' t' ∧ Together Q r r' ∧ R t t'

section
variable {σ α β γ δ : Type} {R : σ → σ → Prop} {P : α → β → Prop} {Q : γ → δ → Prop}

/-- From one state a stage runs in one way, and it gives what its runs give. -/
theorem parallel_self {P : α → α → Prop} {work : Stage σ α}
    (h : ∀ s a t, Runs work s (.ok a) t → P a a) : Parallel Eq P work work := by
  intro s s' hs
  subst hs
  obtain ⟨r, t, hr⟩ := runs_total work s
  refine ⟨r, r, t, t, hr, hr, ?_, rfl⟩
  cases r with
  | ok a => exact .ok (h s a t hr)
  | error e => exact .error e

theorem parallel_refl (work : Stage σ α) : Parallel Eq Eq work work :=
  parallel_self fun _ _ _ _ => rfl

/-- What gives one value after all cannot be told apart by it. -/
theorem map_eq_of_parallel {x : Stage σ α} {y : Stage σ β} {f : α → γ} {g : β → γ}
    (h : Parallel Eq (fun a b => g b = f a) x y) : g <$> y = f <$> x := by
  apply ExceptT.ext
  apply StateT.ext
  intro s
  obtain ⟨r, r', t, t', hr, hr', ho, ht⟩ := h s s rfl
  subst ht
  have hx : Runs (f <$> x) s (r.map f) t := runs_map.mpr ⟨r, hr, rfl⟩
  have hy : Runs (g <$> y) s (r'.map g) t := runs_map.mpr ⟨r', hr', rfl⟩
  have hsame : r'.map g = r.map f := by
    cases ho with
    | ok h => exact congrArg Except.ok h
    | error e => rfl
  rw [hsame] at hy
  exact hy.trans hx.symm

theorem Parallel.mono {P' : α → β → Prop} {x : Stage σ α} {y : Stage σ β} (h : Parallel R P x y)
    (hP : ∀ a b, P a b → P' a b) : Parallel R P' x y := by
  intro s s' hs
  obtain ⟨r, r', t, t', hr, hr', ho, ht⟩ := h s s' hs
  refine ⟨r, r', t, t', hr, hr', ?_, ht⟩
  cases ho with
  | ok h => exact .ok (hP _ _ h)
  | error e => exact .error e

theorem parallel_pure {a : α} {b : β} (h : P a b) : Parallel R P (pure a) (pure b) := by
  intro s s' hs
  exact ⟨_, _, s, s', runs_pure.mpr ⟨rfl, rfl⟩, runs_pure.mpr ⟨rfl, rfl⟩, .ok h, hs⟩

theorem parallel_throw (e : Error) : Parallel R P (throw e) (throw e) := by
  intro s s' hs
  exact ⟨_, _, s, s', runs_throw.mpr ⟨rfl, rfl⟩, runs_throw.mpr ⟨rfl, rfl⟩, .error e, hs⟩

theorem parallel_ofExcept {o : Except Error α} {o' : Except Error β} (h : Together P o o') :
    Parallel R P (ofExcept o) (ofExcept o') := by
  cases h with
  | ok h => exact parallel_pure h
  | error e => exact parallel_throw e

theorem parallel_liftM {o : Except Error α} {o' : Except Error β} (h : Together P o o') :
    Parallel R P (liftM o) (liftM o') := by
  cases h with
  | ok h => exact parallel_pure h
  | error e => exact parallel_throw e

theorem parallel_get : Parallel R R get get := by
  intro s s' hs
  exact ⟨_, _, s, s', runs_get.mpr ⟨rfl, rfl⟩, runs_get.mpr ⟨rfl, rfl⟩, .ok hs, hs⟩

theorem parallel_modify {f g : σ → σ} (h : ∀ s s', R s s' → R (f s) (g s')) :
    Parallel R Eq (modify f : Stage σ PUnit) (modify g) := by
  intro s s' hs
  exact ⟨_, _, f s, g s', runs_modify.mpr ⟨rfl, rfl⟩, runs_modify.mpr ⟨rfl, rfl⟩, .ok rfl, h s s' hs⟩

theorem parallel_bind {x : Stage σ α} {y : Stage σ β} {f : α → Stage σ γ} {g : β → Stage σ δ}
    (hx : Parallel R P x y) (hf : ∀ a b, P a b → Parallel R Q (f a) (g b)) :
    Parallel R Q (x >>= f) (y >>= g) := by
  intro s s' hs
  obtain ⟨r, r', u, u', hr, hr', ho, hu⟩ := hx s s' hs
  cases ho with
  | error e =>
    exact ⟨_, _, u, u', run_bind_of_error hr, run_bind_of_error hr', .error e, hu⟩
  | ok h =>
    obtain ⟨o, o', t, t', ht, ht', ho, hR⟩ := hf _ _ h u u' hu
    exact ⟨o, o', t, t', (runs_bind_of_ok hr).mpr ht, (runs_bind_of_ok hr').mpr ht', ho, hR⟩

/-- Stages that give the same value go on with it. -/
theorem parallel_then {x y : Stage σ α} {f : α → Stage σ γ} {g : α → Stage σ δ}
    (hx : Parallel R Eq x y) (hf : ∀ a, Parallel R Q (f a) (g a)) :
    Parallel R Q (x >>= f) (y >>= g) := by
  apply parallel_bind hx
  intro a b h
  subst h
  exact hf a

theorem parallel_get_bind {f g : σ → Stage σ γ}
    (h : ∀ s s', R s s' → Parallel R Eq (f s) (g s')) : Parallel R Eq (get >>= f) (get >>= g) :=
  parallel_bind parallel_get h

theorem parallel_tryCatch {x : Stage σ α} {y : Stage σ β} {f : Error → Stage σ α}
    {g : Error → Stage σ β} (hx : Parallel R P x y) (hf : ∀ e, Parallel R P (f e) (g e)) :
    Parallel R P (tryCatch x f) (tryCatch y g) := by
  intro s s' hs
  obtain ⟨r, r', u, u', hr, hr', ho, hu⟩ := hx s s' hs
  cases ho with
  | ok h => exact ⟨_, _, u, u', run_tryCatch_of_ok hr, run_tryCatch_of_ok hr', .ok h, hu⟩
  | error e =>
    obtain ⟨o, o', t, t', ht, ht', ho, hR⟩ := hf e u u' hu
    exact ⟨o, o', t, t', (run_tryCatch_of_error hr).trans ht, (run_tryCatch_of_error hr').trans ht',
      ho, hR⟩

theorem parallel_mapM {f g : α → Stage σ γ} (h : ∀ a, Parallel R Eq (f a) (g a)) (xs : List α) :
    Parallel R Eq (xs.mapM f) (xs.mapM g) := by
  induction xs with
  | nil => exact parallel_pure rfl
  | cons x xs ih =>
    rw [List.mapM_cons, List.mapM_cons]
    apply parallel_then (h x)
    intro y
    exact parallel_then ih fun ys => parallel_pure rfl

theorem parallel_forM {f g : α → Stage σ PUnit} (h : ∀ a, Parallel R Eq (f a) (g a)) (xs : List α) :
    Parallel R Eq (xs.forM f) (xs.forM g) := by
  induction xs with
  | nil => exact parallel_pure rfl
  | cons x xs ih => exact parallel_then (h x) fun _ => ih

theorem parallel_foldlM {f : α → γ → Stage σ α} {g : β → γ → Stage σ β} {cs : List γ}
    (h : ∀ c ∈ cs, ∀ a b, P a b → Parallel R P (f a c) (g b c)) :
    ∀ {a b}, P a b → Parallel R P (cs.foldlM f a) (cs.foldlM g b) := by
  induction cs with
  | nil => exact fun h => parallel_pure h
  | cons c cs ih =>
    intro a b hab
    obtain ⟨hc, hcs⟩ := List.forall_mem_cons.mp h
    rw [List.foldlM_cons, List.foldlM_cons]
    exact parallel_bind (hc a b hab) fun _ _ => ih hcs

end

/-! ## States that go on alike -/

def AnswersAlike (chain chain' : Chain) (history history' : List Exchange) : Prop :=
  ∀ es c, chain' (history' ++ es) c = chain (history ++ es) c

/-- Two states with the same contracts, in which the same lines have been logged and the same calls made
since the states that they started from. -/
structure Alike (disks : Files.Disk → Files.Disk → Prop) (start start' s s' : State) : Prop where
  disk : disks s.disk s'.disk
  contracts : s'.contracts = s.contracts
  log : ∃ lines, s.log = start.log ++ lines ∧ s'.log = start'.log ++ lines
  calls : ∃ es, s.exchanges = start.exchanges ++ es ∧ s'.exchanges = start'.exchanges ++ es

section
open Session

variable {disks : Files.Disk → Files.Disk → Prop} {start start' s s' : State}

theorem alike_start (hd : disks s.disk s'.disk) (hc : s'.contracts = s.contracts) :
    Alike disks s s' s s' where
  disk := hd
  contracts := hc
  log := ⟨[], by simp⟩
  calls := ⟨[], by simp⟩

theorem Alike.logged (h : Alike disks start start' s s') (lines : List LogLine) :
    Alike disks start start' { s with log := s.log ++ lines } { s' with log := s'.log ++ lines } := by
  obtain ⟨before, hl, hl'⟩ := h.log
  exact { h with log := ⟨before ++ lines, by simp [hl], by simp [hl']⟩ }

theorem Alike.recorded (h : Alike disks start start' s s') {e : Event} (he : ∀ x, e ≠ .chain x) :
    Alike disks start start' { s with events := s.events ++ [e] }
      { s' with events := s'.events ++ [e] } := by
  have hkeep := isAside_exchanges.events
  refine { h with calls := ?_ }
  rw [hkeep s e he, hkeep s' e he]
  exact h.calls

theorem parallel_log (level : Level) (message : String) :
    Parallel (Alike disks start start') Eq (log level message) (log level message) :=
  parallel_modify fun _ _ h => h.logged _

theorem parallel_record {e : Event} (he : ∀ x, e ≠ .chain x) :
    Parallel (Alike disks start start') Eq (record e) (record e) :=
  parallel_modify fun _ _ h => h.recorded he

theorem parallel_log_throw {α β : Type} {Q : α → β → Prop} (level : Level) (message : String)
    (e : Error) :
    Parallel (Alike disks start start') Q (log level message >>= fun _ => throw e)
      (log level message >>= fun _ => throw e) :=
  parallel_then (parallel_log level message) fun _ => parallel_throw e

/-- Work that only logs is done side by side from any two states. -/
theorem parallel_ofLogged {α β : Type} {Q : α → β → Prop} {work : Extraction.Logged α}
    {work' : Extraction.Logged β} (h : Parallel Eq Q work work') :
    Parallel (Alike disks start start') Q (ofLogged work) (ofLogged work') := by
  obtain ⟨r, r', lines, lines', hr, hr', ho, rfl⟩ := h [] [] rfl
  have hwork : ∀ {γ : Type} {work : Extraction.Logged γ} {r : Except Error γ}, Runs work [] r lines →
      ofLogged work = (do
        modify fun s => { s with log := s.log ++ lines }
        ofExcept r) := by
    intro γ work r hr
    unfold ofLogged
    rw [show work.run [] = (r, lines) from hr]
  rw [hwork hr, hwork hr']
  exact parallel_then (parallel_modify fun _ _ h => h.logged lines) fun _ => parallel_ofExcept ho

theorem parallel_ask {chain chain' : Chain}
    (h : AnswersAlike chain chain' start.exchanges start'.exchanges) (c : Call) :
    Parallel (Alike disks start start') Eq (ask chain c) (ask chain' c) := by
  intro s s' hs
  obtain ⟨es, he, he'⟩ := hs.calls
  have ho : chain' s'.exchanges c = chain s.exchanges c := by rw [he, he', h]
  refine ⟨_, _, _, _, runs_ask.mpr ⟨rfl, rfl⟩, runs_ask.mpr ⟨ho.symm, rfl⟩,
    together_refl (fun _ => rfl) _, ?_⟩
  rw [ho]
  refine ⟨hs.disk, hs.contracts, hs.log, es ++ [⟨c, chain s.exchanges c⟩], ?_, ?_⟩
  · rw [State.exchanges_after, he, List.append_assoc]
  · rw [State.exchanges_after, he', List.append_assoc]

end

end ContractBindings
