import ContractBindings.Proofs.Deployment.Addresses

/-!
# Addresses over a whole session

A session is any sequence of steps that plan, deploy, run and change the
deployer. At any time in it the address of an artifact is the one in the last
receipt that confirmed its deployment, after failed steps too.
-/

namespace ContractBindings

structure Workbench where
  state : State
  deployer : Deployer
  chain : Chain
  tasks : List Task := []

/-- A step of a session. A run picks tasks among the planned ones by their positions. -/
inductive Step where
  | plan (args : Json CodePoints)
  | run (picks : List Nat)
  | deploy (task : Task)
  | configure (deployer : Deployer)
  | connect (chain : Chain)

namespace Workbench

def picked (w : Workbench) (picks : List Nat) : List Task := picks.filterMap (w.tasks[·]?)

/-- The workbench after a step; what a failed step has changed stays. -/
def step (w : Workbench) : Step → Workbench
  | .plan args =>
    match Deployment.plan w.state.contracts args with
    | .ok tasks => { w with tasks := w.tasks ++ tasks }
    | .error _ => w
  | .run picks => { w with state := ((w.deployer.run w.chain (w.picked picks)).run.run w.state).2 }
  | .deploy task => { w with state := ((w.deployer.deploy w.chain task).run.run w.state).2 }
  | .configure deployer => { w with deployer }
  | .connect chain => { w with chain }

end Workbench

structure Segment where
  check : List Exchange
  attempts : List Attempt

def Segment.calls (g : Segment) : List Exchange := g.check ++ g.attempts.flatMap (·.calls)

/-- What a run that fails with an error leaves of the artifacts: the addresses of what it deployed
before, and nothing else. -/
def Aborts (picked : List Task) (attempts : List Attempt) (e : Error) (as as' : Artifacts) : Prop :=
  (attempts = [] ∧ as' = as) ∨ ∃ before last rest, attempts = before ++ [last] ∧
    picked = before.map (·.task) ++ last.task :: rest ∧ last.outcome = .error e ∧
    (∀ a ∈ before, ∃ x, a.outcome = .ok x ∧ confirmed a.calls = [x.address]) ∧
    Readdressed before as as' ∧
    ∀ task ∈ last.task :: rest, (∀ a ∈ before, a.task.key ≠ task.key) →
      as'.get? task.key = as.get? task.key

def Attempted (w : Workbench) : Step → List Task → Prop
  | .run picks, tasks => tasks <+: w.picked picks
  | .deploy task, tasks => tasks = [task]
  | _, tasks => tasks = []

/-- What a step does: it makes the calls of its attempts, and changes addresses by the receipts among
them. -/
structure Takes (w : Workbench) (step : Step) (g : Segment) : Prop where
  exchanges : (w.step step).state.exchanges = w.state.exchanges ++ g.calls
  check : ∀ x ∈ g.check, x.call = .isConnected
  tasks : Attempted w step (g.attempts.map (·.task))
  ordered : ∀ a ∈ g.attempts, InOrder w.deployer a.calls
  contracts : Readdressed g.attempts w.state.contracts (w.step step).state.contracts
  aborts : ∀ picks, step = .run picks → ∀ e u,
    Runs (w.deployer.run w.chain (w.picked picks)) w.state (.error e) u →
      Aborts (w.picked picks) g.attempts e w.state.contracts (w.step step).state.contracts

theorem takes_idle {w : Workbench} {step : Step} (hs : (w.step step).state = w.state)
    (ht : Attempted w step []) (hrun : ∀ picks, step ≠ .run picks) : Takes w step ⟨[], []⟩ where
  exchanges := by
    rw [hs]
    exact (List.append_nil _).symm
  check := by simp
  tasks := ht
  ordered := by simp
  contracts := by
    rw [hs]
    exact .nil _
  aborts picks hpicks := absurd hpicks (hrun picks)

theorem takes_deploy (w : Workbench) (task : Task) : ∃ g, Takes w (.deploy task) g := by
  obtain ⟨r, t, h⟩ := runs_total (w.deployer.deploy w.chain task) w.state
  obtain ⟨es, lines, hd, ht⟩ := Deployer.runs_deploy h
  have hstate : (w.step (.deploy task)).state =
      w.state.extend es lines (Artifacts.afterDeploy w.state.contracts task.key r) := by
    rw [← ht]
    exact congrArg Prod.snd h
  refine ⟨⟨[], [⟨task, es, lines, r⟩]⟩, ?_, by simp, rfl, ?_, ?_, fun picks hp => by cases hp⟩
  · rw [hstate, Deployer.exchanges_extend]
    simp [Segment.calls]
  · intro a ha
    rw [List.mem_singleton] at ha
    subst ha
    exact hd.inSequence.toInOrder
  · rw [hstate]
    exact readdressed_deploy hd _

theorem takes_run_unconnected {w : Workbench} {picks : List Nat} {check : List Exchange} {t : State}
    (hcheck : ∀ x ∈ check, x.call = .isConnected) (hstate : (w.step (.run picks)).state = t)
    (hx : t.exchanges = w.state.exchanges ++ check) (hc : t.contracts = w.state.contracts) :
    Takes w (.run picks) ⟨check, []⟩ where
  exchanges := by
    rw [hstate, hx]
    simp [Segment.calls]
  check := hcheck
  tasks := List.nil_prefix
  ordered := by simp
  contracts := by
    rw [hstate, hc]
    exact .nil _
  aborts _ _ _ _ _ := by
    rw [hstate, hc]
    exact .inl ⟨rfl, rfl⟩

theorem aborts_of_attempts {d : Deployer} {as as' : Artifacts} {picked : List Task}
    {attempts : List Attempt} {e : Error} (h : Deployer.Attempts d as picked attempts (.error e) as') :
    Aborts picked attempts e as as' := by
  obtain ⟨before, last, rest, hattempts, hpicked, hbefore, hlast, -⟩ := h.concludes
  have hconfirmed : ∀ a ∈ before, ∃ x, a.outcome = .ok x ∧ confirmed a.calls = [x.address] := by
    intro a ha
    obtain ⟨x, hx⟩ := hbefore a ha
    have hc := h.confirmed a (by simp [hattempts, ha])
    rw [hx] at hc
    exact ⟨x, hx, hc⟩
  -- the attempt that fails awaits no receipt that confirms it, so it gives no address
  have hnone : ∀ key, lastAddress? [last] key = none := by
    intro key
    apply lastAddress?_of_unconfirmed
    intro a ha _
    rw [List.mem_singleton] at ha
    subst ha
    have hc := h.confirmed a (by simp [hattempts])
    rw [hlast] at hc
    exact hc
  have hreaddressed : Readdressed before as as' := by
    refine ⟨h.readdressed.keys, fun key => ?_⟩
    rw [h.readdressed.get, hattempts, lastAddress?_append, hnone, Option.none_or]
  refine .inr ⟨before, last, rest, hattempts, hpicked, hlast, hconfirmed, hreaddressed, ?_⟩
  intro task _ hkeys
  rw [hreaddressed.get, lastAddress?_of_unconfirmed fun a ha hk => absurd hk (hkeys a ha)]
  cases as.get? task.key <;> rfl

theorem takes_run (w : Workbench) (picks : List Nat) : ∃ g, Takes w (.run picks) g := by
  obtain ⟨r, t, h⟩ := runs_total (w.deployer.run w.chain (w.picked picks)) w.state
  have hstate : (w.step (.run picks)).state = t := congrArg Prod.snd h
  -- no tasks, no answer, no connection, or attempts
  rcases Deployer.runs_run h with ⟨-, -, rfl⟩ | ⟨-, ⟨e, -, -, rfl⟩ | ⟨-, -, rfl⟩ |
    ⟨-, attempts, as, ha, rfl⟩⟩
  · exact ⟨⟨[], []⟩, takes_run_unconnected (by simp) hstate (List.append_nil _).symm rfl⟩
  · exact ⟨_, takes_run_unconnected (by simp) hstate (State.exchanges_after _ _) rfl⟩
  · exact ⟨_, takes_run_unconnected (by simp) hstate (Deployer.exchanges_extend _ _ _ _) rfl⟩
  · refine ⟨⟨[⟨.isConnected, .ok true⟩], attempts⟩, ?_, by simp, ha.concludes.tasks_before,
      fun a hm => (ha.inSequence a hm).toInOrder, ?_, ?_⟩
    · rw [hstate, Deployer.exchanges_extend]
      rfl
    · rw [hstate]
      exact ha.readdressed
    · rintro _ ⟨⟩ e u hfail
      obtain ⟨rfl, -⟩ := runs_unique h hfail
      rw [hstate]
      exact aborts_of_attempts ha

theorem takes_step (w : Workbench) : ∀ step, ∃ g, Takes w step g
  | .plan args => by
    refine ⟨_, takes_idle ?_ rfl fun _ => Step.noConfusion⟩
    unfold Workbench.step
    dsimp only
    split <;> rfl
  | .run picks => takes_run w picks
  | .deploy task => takes_deploy w task
  | .configure _ => ⟨_, takes_idle rfl rfl fun _ => Step.noConfusion⟩
  | .connect _ => ⟨_, takes_idle rfl rfl fun _ => Step.noConfusion⟩

/-- **After every step of a session each artifact has the address of its last confirmed deployment**, or
the one it started with. Nothing else of an artifact ever changes, and a run that fails keeps what it
deployed before. -/
theorem session_addresses (w : Workbench) (steps : List Step) :
    ∃ segments : List Segment, segments.length = steps.length ∧ ∀ n ≤ steps.length,
      ((steps.take n).foldl Workbench.step w).state.exchanges =
          w.state.exchanges ++ (segments.take n).flatMap Segment.calls ∧
        Readdressed ((segments.take n).flatMap (·.attempts)) w.state.contracts
          ((steps.take n).foldl Workbench.step w).state.contracts ∧
        ∀ step ∈ steps[n]?, ∀ g ∈ segments[n]?, Takes ((steps.take n).foldl Workbench.step w) step g := by
  -- the first step leaves a workbench, from which the other ones go on
  induction steps generalizing w with
  | nil =>
    refine ⟨[], rfl, fun n _ => ?_⟩
    simp [Readdressed.nil]
  | cons step steps ih =>
    obtain ⟨g, hg⟩ := takes_step w step
    obtain ⟨segments, hlen, hrest⟩ := ih (w.step step)
    refine ⟨g :: segments, by rw [List.length_cons, hlen, List.length_cons], fun n hn => ?_⟩
    cases n with
    | zero =>
      refine ⟨(List.append_nil _).symm, .nil _, ?_⟩
      rintro _ ⟨⟩ _ ⟨⟩
      exact hg
    | succ n =>
      obtain ⟨hexchanges, hcontracts, hnext⟩ := hrest n (Nat.le_of_succ_le_succ hn)
      refine ⟨?_, ?_, hnext⟩
      · rw [List.take_succ_cons, List.take_succ_cons, List.foldl_cons, hexchanges, hg.exchanges,
          List.flatMap_cons, List.append_assoc]
      · rw [List.take_succ_cons, List.take_succ_cons, List.foldl_cons, List.flatMap_cons]
        exact hg.contracts.append hcontracts

end ContractBindings
